import Mathlib.Logic.Relation

namespace Paranoid.TreeSearch

variable {α : Type} {next : α → List α} {a b : α}

/-- What is reached from something by steps to the next ones. -/
def Reaches (next : α → List α) : α → α → Prop := Relation.ReflTransGen fun a b => b ∈ next a

theorem Reaches.refl (a : α) : Reaches next a a := Relation.ReflTransGen.refl

theorem Reaches.head {c : α} (h : b ∈ next a) (hrest : Reaches next b c) : Reaches next a c :=
  Relation.ReflTransGen.head h hrest

theorem reaches_iff : Reaches next a b ↔ a = b ∨ ∃ c ∈ next a, Reaches next c b := by
  rw [Reaches, Relation.ReflTransGen.cases_head_iff]

/-- Steps that go to smaller things come to an end, and with them an induction along them. -/
theorem descend {size : α → Nat} (hsize : ∀ a, ∀ b ∈ next a, size b < size a) {p : α → Prop}
    (h : ∀ a, (∀ b ∈ next a, p b) → p a) (a : α) : p a := by
  induction hn : size a using Nat.strongRecOn generalizing a with
  | ind n ih => exact h a fun b hb => ih (size b) (hn ▸ hsize a b hb) b rfl

/-- A search that tests everything it comes by finds what is reached. -/
theorem search_iff {size : α → Nat}
    (hsize : ∀ a, ∀ b ∈ next a, size b < size a) {test search : α → Bool}
    (hsearch : ∀ a, search a = (test a || (next a).any search)) (a : α) :
    search a = true ↔ ∃ b, Reaches next a b ∧ test b = true := by
  induction a using descend hsize with
  | h a ih =>
      rw [hsearch, Bool.or_eq_true, List.any_eq_true]
      constructor
      · rintro (htest | ⟨b, hb, hfound⟩)
        · exact ⟨a, .refl a, htest⟩
        · obtain ⟨c, hc, htest⟩ := (ih b hb).1 hfound
          exact ⟨c, .head hb hc, htest⟩
      · rintro ⟨c, hc, htest⟩
        rcases reaches_iff.1 hc with rfl | ⟨b, hb, hrest⟩
        · exact .inl htest
        · exact .inr ⟨b, hb, (ih b hb).2 ⟨c, hrest, htest⟩⟩

end Paranoid.TreeSearch
