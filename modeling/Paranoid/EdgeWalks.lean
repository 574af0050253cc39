import Mathlib.Data.List.Basic
import Mathlib.Order.Basic

namespace Paranoid.EdgeWalks

variable {ε α β : Type*} [DecidableEq α] (src dst : ε → α)

/-- The edges that leave a point, with their repetitions. -/
def leaving (edges : List ε) (a : α) : List ε := edges.filter fun e => src e = a

/-- From each point that the walk reaches before its end exactly one edge leaves, the one
that it takes. -/
inductive Walk (edges : List ε) : α → List ε → α → Prop
  | nil (a : α) : Walk edges a [] a
  | cons {a b : α} {e : ε} {path : List ε} (hleaving : leaving src edges a = [e]) (hrest : Walk edges (dst e) path b) :
      Walk edges a (e :: path) b

variable {src dst} {edges : List ε} {a b : α} {e : ε} {path other : List ε}

theorem mem_of_leaving (h : leaving src edges a = [e]) : e ∈ edges ∧ src e = a := by
  have he : e ∈ leaving src edges a := h ▸ List.mem_singleton_self e
  simpa [leaving] using he

theorem leaving_eq_nil (h : ∀ e ∈ edges, src e ≠ a) : leaving src edges a = [] := by
  simpa [leaving] using h

theorem Walk.first (h : Walk src dst edges a path b) (hne : path ≠ []) :
    ∃ e rest, path = e :: rest ∧ leaving src edges a = [e] ∧ Walk src dst edges (dst e) rest b := by
  cases h with
  | nil => exact absurd rfl hne
  | cons hleaving hrest => exact ⟨_, _, rfl, hleaving, hrest⟩

/-- A walk to a point that no edge leaves has no choice. -/
theorem Walk.unique (hend : leaving src edges b = []) (h : Walk src dst edges a path b)
    (hother : Walk src dst edges a other b) : path = other := by
  induction h generalizing other with
  | nil a =>
      cases hother with
      | nil => rfl
      | cons hleaving hrest => simp [hend] at hleaving
  | cons hleaving hrest ih =>
      cases hother with
      | nil => simp [hend] at hleaving
      | cons hleaving' hrest' =>
          rw [hleaving] at hleaving'
          obtain ⟨rfl, -⟩ := List.cons.inj hleaving'
          rw [ih hend hrest']

/-- A walk that climbs ends above every point on its way. -/
theorem Walk.le_of_climbs [Preorder β] {rank : α → β} (h : Walk src dst edges a path b)
    (hclimbs : (a :: path.map dst).Pairwise fun p q => rank p < rank q) :
    ∀ p ∈ a :: path.map dst, rank p ≤ rank b := by
  induction h with
  | nil a => simp
  | cons hleaving hrest ih =>
      obtain ⟨hfirst, hclimbs⟩ := List.pairwise_cons.1 hclimbs
      have hle := ih hclimbs
      intro p hp
      rcases List.mem_cons.1 hp with rfl | hp
      · exact (hfirst _ List.mem_cons_self).le.trans (hle _ List.mem_cons_self)
      · exact hle p hp

section Rank

variable [Preorder β] {rank : α → β} (hrank : ∀ e ∈ edges, rank (src e) < rank (dst e))
include hrank

theorem Walk.rank_lt (h : Walk src dst edges a path b) : ∀ e ∈ path, rank a < rank (dst e) := by
  induction h with
  | nil a => exact nofun
  | cons hleaving hrest ih =>
      obtain ⟨hmem, rfl⟩ := mem_of_leaving hleaving
      intro e' he'
      rcases List.mem_cons.1 he' with rfl | he'
      · exact hrank _ hmem
      · exact (hrank _ hmem).trans (ih e' he')

/-- Where every edge leads up, a walk climbs. -/
theorem Walk.pairwise_rank (h : Walk src dst edges a path b) :
    (a :: path.map dst).Pairwise fun p q => rank p < rank q := by
  induction h with
  | nil a => exact List.pairwise_singleton _ a
  | cons hleaving hrest ih =>
      refine List.pairwise_cons.2 ⟨?_, ih⟩
      simpa using (Walk.cons hleaving hrest).rank_lt hrank

end Rank

end Paranoid.EdgeWalks
