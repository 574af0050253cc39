import Mathlib.Data.List.Basic

namespace Paranoid.Parentheses

open List

variable {α : Type} (opens closes : α → Bool)

/-- With `depth` parentheses open, all that is closed is open, and nothing is left open. -/
def balanced : Nat → List α → Bool
  | depth, [] => depth = 0
  | depth, x :: xs =>
      if opens x then balanced (depth + 1) xs
      else if closes x then depth ≠ 0 && balanced (depth - 1) xs
      else balanced depth xs

/-- The first and the last of a list are parentheses that match each other. -/
def Encloses (xs inner : List α) : Prop :=
  ∃ first last, xs = first :: (inner ++ [last]) ∧
    opens first ∧ closes last ∧ balanced opens closes 0 inner

/-- Some of the pairs of parentheses around a whole list are stripped. -/
inductive Unwraps : List α → List α → Prop
  | refl (xs : List α) : Unwraps xs xs
  | strip {xs inner ys : List α} (h : Encloses opens closes xs inner) (hrest : Unwraps inner ys) : Unwraps xs ys

/-- No pair of parentheses is around the whole list. -/
def Bare (xs : List α) : Prop := ∀ inner, ¬Encloses opens closes xs inner

variable {opens closes} {depth : Nat} {xs ys rest : List α}

theorem balanced_skip (h : ∀ x ∈ xs, opens x = false ∧ closes x = false) :
    balanced opens closes depth (xs ++ rest) = balanced opens closes depth rest := by
  induction xs with
  | nil => rfl
  | cons x xs ih =>
      obtain ⟨⟨hopens, hcloses⟩, h⟩ := forall_mem_cons.1 h
      rw [cons_append, balanced, hopens, hcloses, ih h]
      rfl

/-- A list that does not begin with a parenthesis has none around it. -/
theorem bare_of_head (h : ∀ x ∈ xs.head?, opens x = false) : Bare opens closes xs := by
  rintro inner ⟨first, last, rfl, hfirst, -, -⟩
  rw [h first rfl] at hfirst
  cases hfirst

theorem tail_dropLast_of_encloses {inner : List α} (h : Encloses opens closes xs inner) :
    xs.tail.dropLast = inner := by
  obtain ⟨first, last, rfl, -⟩ := h
  exact dropLast_concat

theorem eq_of_unwraps_bare (h : Unwraps opens closes xs ys) (hbare : Bare opens closes xs) :
    xs = ys := by
  cases h with
  | refl => rfl
  | strip h => exact absurd h (hbare _)

end Paranoid.Parentheses
