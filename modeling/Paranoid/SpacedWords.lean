import Mathlib.Data.List.Induction

namespace Paranoid.SpacedWords

variable {α : Type} {isSpace : α → Bool} {text word : List α} {space : α}

/-- The parts between spaces that are not empty. -/
def splitSpaces (isSpace : α → Bool) (text : List α) : List (List α) :=
  (text.splitOnP isSpace).filter (· ≠ [])

/-- Something without spaces in it, and not empty. -/
def IsWord (isSpace : α → Bool) (word : List α) : Prop := word ≠ [] ∧ ∀ c ∈ word, isSpace c = false

instance (word : List α) : Decidable (IsWord isSpace word) := inferInstanceAs (Decidable (_ ∧ _))

@[simp] theorem splitSpaces_nil : splitSpaces isSpace [] = [] := by
  simp [splitSpaces]

theorem splitSpaces_word (h : IsWord isSpace word) : splitSpaces isSpace word = [word] := by
  simp [splitSpaces, List.splitOnP_eq_singleton h.2, h.1]

theorem splitSpaces_append (h : isSpace space = true) (hword : IsWord isSpace word) :
    splitSpaces isSpace (text ++ space :: word) = splitSpaces isSpace text ++ [word] := by
  rw [splitSpaces, List.splitOnP_append_cons _ _ h,
    List.filter_append, ← splitSpaces, ← splitSpaces, splitSpaces_word hword]

/-- A word behind the text, with a space between them unless there is no text. -/
def pushWord (space : α) (text word : List α) : List α :=
  if text = [] then word else text ++ space :: word

def joinWords (space : α) (words : List (List α)) : List α := words.foldl (pushWord space) []

theorem joinWords_concat (space : α) (words : List (List α)) :
    joinWords space (words ++ [word]) = pushWord space (joinWords space words) word := by
  rw [joinWords, List.foldl_append]
  rfl

theorem splitSpaces_pushWord (h : isSpace space = true) (hword : IsWord isSpace word) :
    splitSpaces isSpace (pushWord space text word) = splitSpaces isSpace text ++ [word] := by
  unfold pushWord
  split
  · rename_i hempty
    rw [hempty, splitSpaces_nil, List.nil_append, splitSpaces_word hword]
  · exact splitSpaces_append h hword

theorem splitSpaces_joinWords {words : List (List α)}
    (h : isSpace space = true) (hwords : ∀ word ∈ words, IsWord isSpace word) :
    splitSpaces isSpace (joinWords space words) = words := by
  induction words using List.reverseRecOn with
  | nil => exact splitSpaces_nil
  | append_singleton words word ih =>
      rw [List.forall_mem_append, List.forall_mem_singleton] at hwords
      rw [joinWords_concat, splitSpaces_pushWord h hwords.2, ih hwords.1]

/-- One space for each word is enough room. -/
theorem weight_joinWords (weight : List α → Nat)
    (hweight : ∀ text word, weight (text ++ space :: word) = weight text + 1 + weight word)
    {words : List (List α)} {bound : Nat}
    (hwords : ∀ word ∈ words, weight word ≤ bound) (hnil : weight [] = 0) :
    weight (joinWords space words) ≤ words.length * (bound + 1) := by
  induction words using List.reverseRecOn with
  | nil => simp [joinWords, hnil]
  | append_singleton words word ih =>
      rw [List.forall_mem_append, List.forall_mem_singleton] at hwords
      have hbefore := ih hwords.1
      have hword := hwords.2
      rw [joinWords_concat, List.length_append,
        List.length_singleton, Nat.add_mul, Nat.one_mul, pushWord]
      split
      · omega
      · rw [hweight]
        omega

end Paranoid.SpacedWords
