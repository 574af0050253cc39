import Mathlib.Data.List.Basic
import Mathlib.Data.List.Induction
import Mathlib.Order.Basic

namespace Paranoid.Transitions

variable {σ ι ο α : Type*}

/-- The state after a machine has taken the given inputs in order. A machine is
total: an input that does not apply leaves the state and says so in its output. -/
def exec (step : ι → σ → σ × ο) : List ι → σ → σ
  | [], s => s
  | i :: is, s => exec step is (step i s).1

/-- What an observer of the run writes down: each input with its output. -/
def trace (step : ι → σ → σ × ο) : List ι → σ → List (ι × ο)
  | [], _ => []
  | i :: is, s => (i, (step i s).2) :: trace step is (step i s).1

/-- Every step of the run is taken in a state that meets the guard. -/
def Meets (guard : ι → σ → Prop) (step : ι → σ → σ × ο) : List ι → σ → Prop
  | [], _ => True
  | i :: is, s => guard i s ∧ Meets guard step is (step i s).1

instance decidableMeets (guard : ι → σ → Prop) [∀ i s, Decidable (guard i s)]
    (step : ι → σ → σ × ο) : ∀ is s, Decidable (Meets guard step is s)
  | [], _ => .isTrue trivial
  | i :: is, s =>
      haveI := decidableMeets guard step is (step i s).1
      inferInstanceAs (Decidable (guard i s ∧ Meets guard step is (step i s).1))

variable {step : ι → σ → σ × ο}

@[simp] theorem exec_nil (s : σ) : exec step [] s = s := rfl

@[simp] theorem exec_cons (i : ι) (is : List ι) (s : σ) :
    exec step (i :: is) s = exec step is (step i s).1 := rfl

@[simp] theorem trace_nil (s : σ) : trace step [] s = [] := rfl

@[simp] theorem trace_cons (i : ι) (is : List ι) (s : σ) :
    trace step (i :: is) s = (i, (step i s).2) :: trace step is (step i s).1 := rfl

theorem exec_append (is js : List ι) (s : σ) :
    exec step (is ++ js) s = exec step js (exec step is s) := by
  induction is generalizing s with
  | nil => rfl
  | cons i is ih => exact ih _

theorem trace_append (is js : List ι) (s : σ) :
    trace step (is ++ js) s = trace step is s ++ trace step js (exec step is s) := by
  induction is generalizing s with
  | nil => rfl
  | cons i is ih => simp [ih]

theorem exec_take_succ {is : List ι} {i : ι} {n : Nat} (h : is[n]? = some i) (s : σ) :
    exec step (is.take (n + 1)) s = (step i (exec step (is.take n) s)).1 := by
  rw [List.take_add_one, h, exec_append]
  rfl

/-- The entry of a moment: its input, with the output that the state of that moment gives. -/
theorem getElem?_trace (is : List ι) (s : σ) (n : Nat) :
    (trace step is s)[n]? = is[n]?.map fun i => (i, (step i (exec step (is.take n) s)).2) := by
  induction is generalizing s n with
  | nil => rfl
  | cons i is ih =>
      cases n with
      | zero => rfl
      | succ n => exact ih _ n

theorem getElem?_trace_eq_some {is : List ι} {s : σ} {n : Nat} {i : ι} {o : ο}
    (h : (trace step is s)[n]? = some (i, o)) :
    is[n]? = some i ∧ (step i (exec step (is.take n) s)).2 = o := by
  rw [getElem?_trace] at h
  obtain ⟨i', hi, heq⟩ := Option.map_eq_some_iff.1 h
  obtain ⟨rfl, rfl⟩ := Prod.mk.inj heq
  exact ⟨hi, rfl⟩

@[simp] theorem meets_nil {guard : ι → σ → Prop} (s : σ) : Meets guard step [] s := trivial

@[simp] theorem meets_cons {guard : ι → σ → Prop} (i : ι) (is : List ι) (s : σ) :
    Meets guard step (i :: is) s ↔ guard i s ∧ Meets guard step is (step i s).1 := Iff.rfl

theorem meets_append {guard : ι → σ → Prop} (is js : List ι) (s : σ) :
    Meets guard step (is ++ js) s ↔ Meets guard step is s ∧ Meets guard step js (exec step is s) := by
  induction is generalizing s with
  | nil => simp
  | cons i is ih => simp [ih, and_assoc]

/-- What each guarded step preserves, a run of guarded steps preserves. -/
theorem exec_preserves {guard : ι → σ → Prop} {Inv : σ → Prop}
    (hstep : ∀ i s, guard i s → Inv s → Inv (step i s).1) {is : List ι} {s : σ}
    (hg : Meets guard step is s) (hs : Inv s) : Inv (exec step is s) := by
  induction is generalizing s with
  | nil => exact hs
  | cons i is ih => exact ih hg.2 (hstep i s hg.1 hs)

theorem meets_true (is : List ι) (s : σ) : Meets (fun _ _ => True) step is s := by
  induction is generalizing s with
  | nil => trivial
  | cons i is ih => exact ⟨trivial, ih _⟩

theorem exec_invariant (Inv : σ → Prop) (hstep : ∀ i s, Inv s → Inv (step i s).1)
    (is : List ι) {s : σ} (hs : Inv s) : Inv (exec step is s) := by
  exact exec_preserves (fun i s _ => hstep i s) (meets_true is s) hs

/-- What each step preserves at its own moment of a run, holds at every moment of it. -/
theorem exec_moments (Inv : Nat → σ → Prop) {is : List ι} {s : σ}
    (hstep : ∀ n i, is[n]? = some i → Inv n (exec step (is.take n) s) →
      Inv (n + 1) (step i (exec step (is.take n) s)).1)
    (hs : Inv 0 s) {n : Nat} (hn : n ≤ is.length) : Inv n (exec step (is.take n) s) := by
  induction n with
  | zero => exact hs
  | succ n ih =>
      have hi := List.getElem?_eq_getElem (Nat.lt_of_succ_le hn)
      rw [exec_take_succ hi]
      exact hstep n _ hi (ih (Nat.le_of_succ_le hn))

theorem meets_and {guard other : ι → σ → Prop} {is : List ι} {s : σ} (h : Meets guard step is s)
    (h' : Meets other step is s) : Meets (fun i s => guard i s ∧ other i s) step is s := by
  induction is generalizing s with
  | nil => trivial
  | cons i is ih => exact ⟨⟨h.1, h'.1⟩, ih h.2 h'.2⟩

/-- An invariant that keeps account of the steps and of the marked entries of the trace. -/
theorem trace_countP {guard : ι → σ → Prop} {Inv : Nat → Nat → σ → Prop} {marked : ι × ο → Bool}
    (hstep : ∀ i s steps n, guard i s → Inv steps n s →
      Inv (steps + 1) (n + if marked (i, (step i s).2) then 1 else 0) (step i s).1)
    {is : List ι} {s : σ} {steps n : Nat} (hg : Meets guard step is s) (hs : Inv steps n s) :
    Inv (steps + is.length) (n + (trace step is s).countP marked) (exec step is s) := by
  induction is generalizing s steps n with
  | nil => simpa using hs
  | cons i is ih =>
      have htail := ih hg.2 (hstep i s steps n hg.1 hs)
      rw [trace_cons, List.countP_cons, exec_cons, Nat.add_comm (List.countP marked _), ← Nat.add_assoc,
        List.length_cons, Nat.add_comm is.length, ← Nat.add_assoc]
      exact htail

/-- Inputs that are restricted one by one restrict the run. -/
theorem meets_of_forall {P : ι → Prop} {is : List ι} (h : ∀ i ∈ is, P i) (s : σ) :
    Meets (fun i _ => P i) step is s := by
  induction is generalizing s with
  | nil => trivial
  | cons i is ih =>
      rw [List.forall_mem_cons] at h
      exact ⟨h.1, ih h.2 _⟩

/-- What no step brings about unless `R` holds of it, and does not hold at the start, goes back
to a step of the run of which `R` held, and has held since. -/
theorem exec_kept_since {Q : σ → Prop} {R : ι → σ → Prop}
    (hstep : ∀ i s, Q (step i s).1 → Q s ∨ R i s) {is : List ι} {s : σ} (hs : ¬Q s)
    (h : Q (exec step is s)) : ∃ before i after, is = before ++ i :: after ∧
      R i (exec step before s) ∧
      ∀ later, later <+: after → Q (exec step (before ++ i :: later) s) := by
  induction is using List.reverseRecOn with
  | nil => exact absurd h hs
  | append_singleton is i ih =>
      by_cases hQ : Q (exec step is s)
      · obtain ⟨before, j, after, rfl, hR, hkept⟩ := ih hQ
        refine ⟨before, j, after ++ [i], by simp, hR, fun later hlater => ?_⟩
        rcases List.prefix_concat_iff.1 hlater with rfl | hlater
        · simpa using h
        · exact hkept later hlater
      · rw [exec_append] at h
        refine ⟨is, i, [], rfl, (hstep i _ h).resolve_left hQ, fun later hlater => ?_⟩
        rw [List.prefix_nil.1 hlater, exec_append]
        exact h

theorem exec_since {Q R : σ → Prop} (hstep : ∀ i s, Q (step i s).1 → Q s ∨ R s)
    {is : List ι} {s : σ} (hs : ¬Q s)
    (h : Q (exec step is s)) : ∃ before, before <+: is ∧ R (exec step before s) := by
  obtain ⟨before, i, after, rfl, hR, -⟩ := exec_kept_since (R := fun _ => R) hstep hs h
  exact ⟨before, List.prefix_append before (i :: after), hR⟩

/-- States that are alike from some time on tell the same of any run from that time on. -/
theorem trace_congr {τ : Type*} [Preorder τ] {time : ι → τ} {alike : τ → σ → σ → Prop}
    (hstep : ∀ i s s' t, t ≤ time i → alike t s s' →
      (step i s).2 = (step i s').2 ∧
        alike (time i) (step i s).1 (step i s').1) {is : List ι} {s s' : σ} {t : τ}
    (hfrom : ∀ i ∈ is, t ≤ time i)
    (hsorted : is.Pairwise fun i j => time i ≤ time j) (h : alike t s s') :
    trace step is s = trace step is s' := by
  induction is generalizing s s' t with
  | nil => rfl
  | cons i is ih =>
      obtain ⟨hfirst, hsorted⟩ := List.pairwise_cons.1 hsorted
      obtain ⟨hsame, halike⟩ := hstep i s s' t (hfrom i List.mem_cons_self) h
      rw [trace_cons, trace_cons, hsame, ih hfirst hsorted halike]

section Measure

variable [Preorder α] {m : σ → α}

theorem exec_mono (hstep : ∀ i s, m s ≤ m (step i s).1) (is : List ι) (s : σ) :
    m s ≤ m (exec step is s) :=
  exec_invariant (fun t => m s ≤ m t) (fun i t h => h.trans (hstep i t)) is le_rfl

/-- When each stamp is above the measure before its step and within it after,
stamps increase along the run. -/
theorem trace_stamps (Inv : σ → Prop) {stamp : ι × ο → Option α}
    (hinv : ∀ i s, Inv s → Inv (step i s).1)
    (hmono : ∀ i s, Inv s → m s ≤ m (step i s).1)
    (hstamp : ∀ i s n, Inv s → stamp (i, (step i s).2) = some n → m s < n ∧ n ≤ m (step i s).1)
    (is : List ι) {s : σ} (hs : Inv s) :
    ((trace step is s).filterMap stamp).Pairwise (· < ·) ∧
      ∀ n ∈ (trace step is s).filterMap stamp, m s < n := by
  induction is generalizing s with
  | nil => simp
  | cons i is ih =>
      obtain ⟨hp, hb⟩ := ih (hinv i s hs)
      have hlt : ∀ n ∈ (trace step is (step i s).1).filterMap stamp, m s < n :=
        fun n hn => (hmono i s hs).trans_lt (hb n hn)
      rw [trace_cons, List.filterMap_cons]
      cases hc : stamp (i, (step i s).2) with
      | none => exact ⟨hp, hlt⟩
      | some n =>
          obtain ⟨h1, h2⟩ := hstamp i s n hs hc
          refine ⟨List.pairwise_cons.2 ⟨fun k hk => h2.trans_lt (hb k hk), hp⟩, ?_⟩
          intro k hk
          rcases List.mem_cons.1 hk with rfl | hk
          · exact h1
          · exact hlt k hk

/-- Entries that carry the same stamp, where stamps increase, are the same entry. -/
theorem eq_of_stamp {β : Type*} {stamp : β → Option α} {entries : List β} {x y : β} {n : α}
    (h : (entries.filterMap stamp).Pairwise (· < ·)) (hx : x ∈ entries) (hy : y ∈ entries)
    (hnx : stamp x = some n) (hny : stamp y = some n) : x = y := by
  induction entries with
  | nil => cases hx
  | cons entry entries ih =>
      have hhead : ∀ z ∈ entries, stamp entry = some n → stamp z ≠ some n := by
        intro z hz hentry hnz
        rw [List.filterMap_cons, hentry] at h
        exact lt_irrefl _ ((List.pairwise_cons.1 h).1 n (List.mem_filterMap.2 ⟨z, hz, hnz⟩))
      have htail : (entries.filterMap stamp).Pairwise (· < ·) :=
        h.sublist ((List.sublist_cons_self entry entries).filterMap stamp)
      rcases List.mem_cons.1 hx with hx | hx <;> rcases List.mem_cons.1 hy with hy | hy
      · exact hx.trans hy.symm
      · exact absurd hny (hhead y hy (hx ▸ hnx))
      · exact absurd hnx (hhead x hx (hy ▸ hny))
      · exact ih htail hx hy

end Measure

end Paranoid.Transitions
