import Mathlib.Data.List.Infix

namespace Paranoid.LikePatterns

variable {α : Type} [DecidableEq α]

inductive Token (α : Type)
  | literal (a : α)
  | one
  | many
  deriving DecidableEq

variable (escape one many : α)

/-- The letter after an escape stands for itself. A pattern may not end with an escape. -/
def tokens : List α → Option (List (Token α))
  | [] => some []
  | a :: pattern =>
      if a = escape then
        match pattern with
        | [] => none
        | b :: pattern => (tokens pattern).map (.literal b :: ·)
      else if a = one then (tokens pattern).map (.one :: ·)
      else if a = many then (tokens pattern).map (.many :: ·)
      else (tokens pattern).map (.literal a :: ·)

/-- The pattern covers the whole text. -/
def covers : List (Token α) → List α → Bool
  | [], text => text.isEmpty
  | .literal a :: rest, text =>
      match text with
      | [] => false
      | b :: text => a == b && covers rest text
  | .one :: rest, text =>
      match text with
      | [] => false
      | _ :: text => covers rest text
  | .many :: rest, text => text.tails.any (covers rest)

/-- What `text LIKE pattern` says, or nothing for a pattern that is an error. -/
def like (pattern text : List α) : Option Bool := (tokens escape one many pattern).map (covers · text)

def escaped (text : List α) : List α :=
  text.flatMap fun a => if a = escape ∨ a = many ∨ a = one then [escape, a] else [a]

variable {escape one many}

theorem tokens_plain {a : α} (h : ¬(a = escape ∨ a = many ∨ a = one)) (pattern : List α) :
    tokens escape one many (a :: pattern) = (tokens escape one many pattern).map (.literal a :: ·) := by
  rw [not_or, not_or] at h
  rw [tokens.eq_def]
  dsimp only
  rw [if_neg h.1, if_neg h.2.2, if_neg h.2.1]

theorem tokens_escaped (text pattern : List α) :
    tokens escape one many (escaped escape one many text ++ pattern) =
      (tokens escape one many pattern).map (text.map .literal ++ ·) := by
  induction text with
  | nil => simp [escaped]
  | cons a text ih =>
      have hcons : escaped escape one many (a :: text) =
          (if a = escape ∨ a = many ∨ a = one then [escape, a] else [a]) ++
            escaped escape one many text := rfl
      rw [hcons]
      split
      · simp [tokens, ih, Function.comp_def]
      · rename_i hplain
        rw [List.singleton_append, List.cons_append, tokens_plain hplain, ih]
        simp [Function.comp_def]

theorem covers_literals (text : List α) (rest : List (Token α)) (other : List α) :
    covers (text.map .literal ++ rest) other = true ↔
      ∃ tail, other = text ++ tail ∧ covers rest tail = true := by
  induction text generalizing other with
  | nil => simp
  | cons a text ih =>
      cases other with
      | nil => simp [covers]
      | cons b other =>
          simp only [List.map_cons, List.cons_append, covers,
            Bool.and_eq_true, beq_iff_eq, ih, List.cons.injEq]
          constructor
          · rintro ⟨rfl, tail, rfl, htail⟩
            exact ⟨tail, ⟨rfl, rfl⟩, htail⟩
          · rintro ⟨tail, ⟨rfl, rfl⟩, htail⟩
            exact ⟨rfl, tail, rfl, htail⟩

theorem covers_many (text : List α) : covers [.many] text = true := by
  rw [covers, List.any_eq_true]
  exact ⟨[], List.mem_tails _ _ |>.2 (List.nil_suffix), rfl⟩

/-- The escaped text with a wildcard behind it asks for the texts that start with it. -/
theorem like_escaped (hone : many ≠ one) (hescape : many ≠ escape) (text other : List α) :
    like escape one many (escaped escape one many text ++ [many]) other =
      some (decide (text <+: other)) := by
  have hmany : tokens escape one many [many] = some [.many] := by simp [tokens, hone, hescape]
  rw [like, tokens_escaped, hmany, Option.map_some, Option.map_some,
    Option.some.injEq, Bool.eq_iff_iff, decide_eq_true_iff,
    covers_literals]
  constructor
  · rintro ⟨tail, rfl, -⟩
    exact List.prefix_append text tail
  · rintro ⟨tail, rfl⟩
    exact ⟨tail, rfl, covers_many tail⟩

end Paranoid.LikePatterns
