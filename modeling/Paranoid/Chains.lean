import Mathlib.Data.List.Basic

namespace Paranoid.Chains

variable {α β : Type} {before after : α → β}

/-- Each change starts from where the one before it has left off. -/
def Chained (before after : α → β) (start : β) : List α → β → Prop
  | [], stop => stop = start
  | w :: ws, stop => before w = start ∧ Chained before after (after w) ws stop

theorem chained_append {start stop : β} {ws us : List α} :
    Chained before after start (ws ++ us) stop ↔
      ∃ middle, Chained before after start ws middle ∧ Chained before after middle us stop := by
  induction ws generalizing start with
  | nil => simp [Chained]
  | cons w ws ih => simp [Chained, ih, and_assoc]

theorem chained_concat {start : β} {ws : List α} {w : α}
    (h : Chained before after start ws (before w)) :
    Chained before after start (ws ++ [w]) (after w) :=
  chained_append.2 ⟨before w, h, rfl, rfl⟩

end Paranoid.Chains
