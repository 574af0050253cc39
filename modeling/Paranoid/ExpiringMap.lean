import Mathlib.Data.Finset.Sort
import Mathlib.Data.Set.Finite.Basic
import Mathlib.Logic.Function.Basic

namespace Paranoid.ExpiringMap

variable {K V T : Type}

structure Entry (V T : Type) where
  value : V
  expiresAt : Option T

/-- An entry is live exactly while its expiry is absent or still to come. -/
def Entry.Live [LT T] (now : T) (e : Entry V T) : Prop := ∀ t ∈ e.expiresAt, now < t

/-- Finitely many keys have an entry; an entry that is not live counts for nothing. -/
structure Map (K V T : Type) where
  entry : K → Option (Entry V T)
  finite : {k | entry k ≠ none}.Finite

section Views

variable [LinearOrder T]

instance (now : T) (e : Entry V T) : Decidable (e.Live now) :=
  inferInstanceAs (Decidable (∀ t ∈ e.expiresAt, now < t))

def live (now : T) (cell : Option (Entry V T)) : Option (Entry V T) :=
  cell.filter fun e => decide (e.Live now)

/-- What can be told of the map at a time. -/
def Map.view (m : Map K V T) (now : T) (k : K) : Option (Entry V T) := live now (m.entry k)

theorem Entry.Live.earlier {now later : T} {e : Entry V T}
    (hle : now ≤ later) (h : e.Live later) : e.Live now :=
  fun t ht => hle.trans_lt (h t ht)

@[simp] theorem live_none (now : T) : live now (none : Option (Entry V T)) = none := rfl

theorem live_some (now : T) (e : Entry V T) :
    live now (some e) = if e.Live now then some e else none := by
  by_cases h : e.Live now <;> simp [live, Option.filter, h]

theorem live_eq_some {now : T} {cell : Option (Entry V T)} {e : Entry V T} :
    live now cell = some e ↔ cell = some e ∧ e.Live now := by
  rw [live, Option.filter_eq_some_iff, decide_eq_true_eq]

/-- Liveness is lost for good. -/
theorem live_live {now later : T} (hle : now ≤ later) (cell : Option (Entry V T)) :
    live later (live now cell) = live later cell := by
  ext e
  simp only [live_eq_some]
  constructor
  · rintro ⟨⟨hcell, -⟩, hlater⟩
    exact ⟨hcell, hlater⟩
  · rintro ⟨hcell, hlater⟩
    exact ⟨⟨hcell, hlater.earlier hle⟩, hlater⟩

theorem view_later {m : Map K V T} {now later : T} (hle : now ≤ later) :
    m.view later = fun k => live later (m.view now k) := by
  funext k
  exact (live_live hle (m.entry k)).symm

end Views

section Writes

variable [DecidableEq K]

/-- The map with the cell under one key replaced. -/
def Map.put (m : Map K V T) (k : K) (cell : Option (Entry V T)) : Map K V T where
  entry := Function.update m.entry k cell
  finite := by
    refine (m.finite.insert k).subset fun other hother => ?_
    by_cases h : other = k
    · exact Or.inl h
    · refine Or.inr ?_
      rwa [Set.mem_ofPred_eq, Function.update_of_ne h] at hother

theorem view_put [LinearOrder T] (m : Map K V T) (now : T) (k : K) (cell : Option (Entry V T)) :
    (m.put k cell).view now = Function.update (m.view now) k (live now cell) := by
  funext other
  by_cases h : other = k
  · subst h
    simp [Map.view, Map.put]
  · simp [Map.view, Map.put, h]

/-- The map without the keys of a set. -/
def Map.without (m : Map K V T) (removed : Finset K) : Map K V T where
  entry k := if k ∈ removed then none else m.entry k
  finite := by
    refine m.finite.subset fun k hk => ?_
    rw [Set.mem_ofPred_eq] at hk ⊢
    intro h
    apply hk
    rw [h, ite_self]

theorem view_without [LinearOrder T] (m : Map K V T) (now : T) (removed : Finset K) :
    (m.without removed).view now = fun k => if k ∈ removed then none else m.view now k := by
  funext k
  by_cases h : k ∈ removed <;> simp [Map.view, Map.without, h]

end Writes

section Keys

variable [LinearOrder T]

theorem Map.view_finite (m : Map K V T) (now : T) : {k | m.view now k ≠ none}.Finite := by
  refine m.finite.subset fun k hk hnone => hk ?_
  rw [Map.view, hnone, live_none]

/-- The keys of the live entries. -/
noncomputable def Map.liveKeys (m : Map K V T) (now : T) : Finset K := (m.view_finite now).toFinset

theorem mem_liveKeys {m : Map K V T} {now : T} {k : K} :
    k ∈ m.liveKeys now ↔ (m.view now k).isSome := by
  rw [Map.liveKeys, Set.Finite.mem_toFinset, Set.mem_ofPred_eq, Option.isSome_iff_ne_none]

section Congruence

variable {W : Type} {m : Map K V T} {m' : Map K W T} {now : T} {p : K → Bool}

/-- Which values the keys have does not count. -/
theorem filter_liveKeys_congr (h : ∀ k, p k → (m.view now k).isSome = (m'.view now k).isSome) :
    ((m.liveKeys now).filter fun k => p k) = (m'.liveKeys now).filter fun k => p k := by
  ext k
  simp only [Finset.mem_filter, mem_liveKeys, and_congr_left_iff]
  intro hk
  rw [h k hk]

end Congruence

variable [LinearOrder K]

/-- The first live keys with a property, in order. -/
noncomputable def Map.scan (m : Map K V T) (now : T) (p : K → Bool) (limit : Nat) : List K :=
  (((m.liveKeys now).filter fun k => p k).sort (· ≤ ·)).take limit

theorem scan_congr {W : Type} {m : Map K V T} {m' : Map K W T} {now : T} {p : K → Bool}
    (h : ∀ k, p k → (m.view now k).isSome = (m'.view now k).isSome) (limit : Nat) :
    m.scan now p limit = m'.scan now p limit := by
  rw [Map.scan, Map.scan, filter_liveKeys_congr h]

theorem mem_scan {m : Map K V T} {now : T} {p : K → Bool} {limit : Nat} {k : K}
    (h : k ∈ m.scan now p limit) : (m.view now k).isSome ∧ p k := by
  have hmem := List.mem_of_mem_take h
  rw [Finset.mem_sort, Finset.mem_filter, mem_liveKeys] at hmem
  exact hmem

/-- How the keys of a finite representation are scanned. -/
theorem filter_liveKeys {m : Map K V T} {now : T} {p : K → Bool} {keys : List K}
    (hkeys : ∀ k, k ∈ keys ↔ (m.view now k).isSome ∧ p k) :
    ((m.liveKeys now).filter fun k => p k) = keys.toFinset := by
  ext k
  rw [Finset.mem_filter, mem_liveKeys, List.mem_toFinset, hkeys]

theorem scan_eq {m : Map K V T} {now : T} {p : K → Bool}
    {keys : List K} (hsorted : keys.Pairwise (· ≤ ·))
    (hnodup : keys.Nodup) (hkeys : ∀ k, k ∈ keys ↔ (m.view now k).isSome ∧ p k) (limit : Nat) :
    m.scan now p limit = keys.take limit := by
  rw [Map.scan, filter_liveKeys hkeys, (List.toFinset_sort (· ≤ ·) hnodup).2 hsorted]

theorem card_liveKeys {m : Map K V T} {now : T} {p : K → Bool} {keys : List K}
    (hnodup : keys.Nodup) (hkeys : ∀ k, k ∈ keys ↔ (m.view now k).isSome ∧ p k) :
    ((m.liveKeys now).filter fun k => p k).card = keys.length := by
  rw [filter_liveKeys hkeys, List.toFinset_card_of_nodup hnodup]

end Keys

end Paranoid.ExpiringMap
