import Mathlib.Data.Option.Basic
import Mathlib.Data.Int.Order.Basic

namespace Paranoid.RetryBudget

/-- Where a piece of retried work is. -/
inductive Place
  | waiting
  | claimed
  | started
  | ended
  deriving DecidableEq

inductive Move
  | keep
  | claim
  | start
  | giveBack
  | retry
  | finish (counted : Bool)
  | remove
  deriving DecidableEq

def Place.taken (place : Place) : Bool := place = .claimed || place = .started

/-- Where the move leads from a place, where it is open. -/
def Move.target (move : Move) (place : Place) : Option Place :=
  match move with
  | .keep => some place
  | .claim => if place = .waiting then some .claimed else none
  | .start => if place = .claimed then some .started else none
  | .giveBack | .retry => if place.taken then some .waiting else none
  | .finish _ => if place.taken then some .ended else none
  | .remove => some .ended

/-- The move counts a failure. -/
def Move.counted : Move → Bool
  | .retry | .finish true => true
  | _ => false

/-- The work with its count of failures, and a record of how often it was started and
how often it was given back without being counted. -/
structure Account where
  place : Place
  count : Int
  starts : Nat
  returns : Nat

def fresh : Account := ⟨.waiting, 0, 0, 0⟩

/-- The account after the move; a retry has to stay within the budget. -/
def Account.after (budget : Int) (move : Move) (a : Account) : Option Account :=
  if move = .retry ∧ budget ≤ a.count then none
  else (move.target a.place).map fun place =>
    { place
      count := a.count + if move.counted then 1 else 0
      starts := a.starts + if move = .start then 1 else 0
      returns := a.returns + if move = .giveBack then 1 else 0 }

/-- Every start is paid for by a counted failure or by a return, but for the first one
and the one under way. -/
structure Within (budget : Int) (a : Account) : Prop where
  count_le : a.place ≠ .ended → a.count ≤ budget
  starts_le_count : a.place ≠ .ended →
    (a.starts : Int) ≤ a.count + a.returns + if a.place = .started then 1 else 0
  starts_le : (a.starts : Int) ≤ budget + 1 + a.returns

theorem within_fresh {budget : Int} (h : 0 ≤ budget) : Within budget fresh := by
  refine ⟨fun _ => h, fun _ => ?_, ?_⟩
  · simp [fresh]
  · simp only [fresh]
    omega

theorem taken_ne_ended {place : Place} (h : place.taken) : place ≠ .ended := by
  rintro rfl
  cases h

theorem after_of_target {budget : Int} {move : Move} {a : Account} {place : Place}
    (hopen : ¬(move = .retry ∧ budget ≤ a.count)) (h : move.target a.place = some place) :
    a.after budget move = some
      { place
        count := a.count + if move.counted then 1 else 0
        starts := a.starts + if move = .start then 1 else 0
        returns := a.returns + if move = .giveBack then 1 else 0 } := by
  rw [Account.after, if_neg hopen, h, Option.map_some]

theorem after_eq_some {budget : Int} {move : Move}
    {a a' : Account} (h : a.after budget move = some a') :
    ¬(move = .retry ∧ budget ≤ a.count) ∧ move.target a.place = some a'.place ∧
      a'.count = a.count + (if move.counted then 1 else 0) ∧
      a'.starts = a.starts + (if move = .start then 1 else 0) ∧
      a'.returns = a.returns + if move = .giveBack then 1 else 0 := by
  obtain ⟨hopen, h⟩ := Option.ite_none_left_eq_some.1 h
  obtain ⟨place, hplace, rfl⟩ := Option.map_eq_some_iff.1 h
  exact ⟨hopen, hplace, rfl, rfl, rfl⟩

theorem within_after {budget : Int} {move : Move}
    {a a' : Account} (hmove : a.after budget move = some a')
    (h : Within budget a) : Within budget a' := by
  obtain ⟨hopen, htarget, hcount, hstarts, hreturns⟩ := after_eq_some hmove
  have hbound := h.starts_le
  cases move with
  | keep =>
      obtain rfl : a = a' := by
        cases a
        cases a'
        simp_all [Move.target, Move.counted]
      exact h
  | claim =>
      obtain ⟨hplace, htarget⟩ := Option.ite_none_right_eq_some.1 htarget
      have hplace' := (Option.some.inj htarget).symm
      have hpaid := h.starts_le_count (by simp [hplace])
      have hbudget := h.count_le (by simp [hplace])
      simp only [hplace, Move.counted, Bool.false_eq_true,
        reduceCtorEq, if_false] at hpaid hcount hstarts hreturns
      refine ⟨fun _ => ?_, fun _ => ?_, ?_⟩
      · omega
      · simp only [hplace', reduceCtorEq, if_false]
        omega
      · omega
  | start =>
      obtain ⟨hplace, htarget⟩ := Option.ite_none_right_eq_some.1 htarget
      have hplace' := (Option.some.inj htarget).symm
      have hpaid := h.starts_le_count (by simp [hplace])
      have hbudget := h.count_le (by simp [hplace])
      simp only [hplace, Move.counted, Bool.false_eq_true, reduceCtorEq,
        if_false, if_true] at hpaid hcount hstarts hreturns
      refine ⟨fun _ => ?_, fun _ => ?_, ?_⟩
      · omega
      · simp only [hplace', if_true]
        omega
      · omega
  | giveBack | retry =>
      obtain ⟨hplace, htarget⟩ := Option.ite_none_right_eq_some.1 htarget
      have hplace' := (Option.some.inj htarget).symm
      have hpaid := h.starts_le_count (taken_ne_ended hplace)
      have hbudget := h.count_le (taken_ne_ended hplace)
      simp only [Move.counted, Bool.false_eq_true, reduceCtorEq, if_false, if_true, true_and, false_and,
        not_le] at hcount hstarts hreturns hopen
      refine ⟨fun _ => ?_, fun _ => ?_, ?_⟩
      · omega
      · simp only [hplace', reduceCtorEq, if_false]
        split at hpaid <;> omega
      · omega
  | finish | remove =>
      have hplace' : a'.place = .ended := by
        simp only [Move.target, Option.ite_none_right_eq_some, Option.some.injEq] at htarget
        first | exact htarget.symm | exact htarget.2.symm
      simp only [reduceCtorEq, if_false] at hstarts hreturns
      refine ⟨fun hopen => absurd hplace' hopen, fun hopen => absurd hplace' hopen, ?_⟩
      omega

end Paranoid.RetryBudget
