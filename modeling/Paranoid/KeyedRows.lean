import Mathlib.Data.List.Nodup

namespace Paranoid.KeyedRows

variable {ρ κ : Type} [DecidableEq κ] {key : ρ → κ} {rows : List ρ} {k : κ}

/-- The row under a key. -/
def lookup (key : ρ → κ) (rows : List ρ) (k : κ) : Option ρ :=
  rows.find? fun row => decide (key row = k)

/-- The row in place of the one under its key, or after the others where there is none. -/
def upsert (key : ρ → κ) (row : ρ) (rows : List ρ) : List ρ :=
  if (lookup key rows (key row)).isSome then rows.map fun other => if key other = key row then row else other
  else rows ++ [row]

theorem lookup_eq_some {row : ρ} (hrows : (rows.map key).Nodup) :
    lookup key rows k = some row ↔ row ∈ rows ∧ key row = k := by
  rw [lookup]
  constructor
  · intro h
    exact ⟨List.mem_of_find?_eq_some h, by simpa using List.find?_some h⟩
  · rintro ⟨hmem, rfl⟩
    cases hf : rows.find? (fun other => decide (key other = key row)) with
    | none => exact absurd (List.find?_eq_none.1 hf row hmem) (by simp)
    | some other =>
        have hkey : key other = key row := by simpa using List.find?_some hf
        rw [List.inj_on_of_nodup_map hrows (List.mem_of_find?_eq_some hf) hmem hkey]

theorem lookup_eq_none : lookup key rows k = none ↔ ∀ row ∈ rows, key row ≠ k := by
  simp [lookup]

theorem lookup_eq_none_of_not_mem (h : k ∉ rows.map key) : lookup key rows k = none :=
  lookup_eq_none.2 fun row hrow heq => h (List.mem_map.2 ⟨row, hrow, heq⟩)

theorem lookup_perm {others : List ρ} (hrows : (rows.map key).Nodup) (hperm : rows.Perm others) :
    lookup key rows k = lookup key others k := by
  ext row
  rw [lookup_eq_some hrows, lookup_eq_some ((hperm.map key).nodup_iff.1 hrows), hperm.mem_iff]

theorem lookup_cons (row : ρ) (rows : List ρ) :
    lookup key (row :: rows) k = if key row = k then some row else lookup key rows k := by
  rw [lookup, List.find?_cons]
  by_cases h : key row = k
  · simp [h]
  · simp [h, lookup]

theorem lookup_key {row : ρ} (h : lookup key rows k = some row) : key row = k := by
  simpa using List.find?_some h

omit [DecidableEq κ] in
theorem nodup_filter (hrows : (rows.map key).Nodup) (p : ρ → Bool) : ((rows.filter p).map key).Nodup :=
  (List.filter_sublist.map key).nodup hrows

theorem lookup_filter (hrows : (rows.map key).Nodup) (p : ρ → Bool) :
    lookup key (rows.filter p) k = (lookup key rows k).filter p := by
  ext row
  rw [Option.filter_eq_some_iff, lookup_eq_some hrows,
    lookup_eq_some (nodup_filter hrows p), List.mem_filter]
  exact and_right_comm

theorem map_upsert (row : ρ) :
    (upsert key row rows).map key =
      if key row ∈ rows.map key then rows.map key else rows.map key ++ [key row] := by
  have hpresent : (lookup key rows (key row)).isSome ↔ key row ∈ rows.map key := by
    rw [← not_iff_not, Bool.not_eq_true, Option.isSome_eq_false_iff,
      Option.isNone_iff_eq_none, lookup_eq_none]
    simp
  rw [upsert]
  by_cases h : key row ∈ rows.map key
  · rw [if_pos (hpresent.2 h), if_pos h, List.map_map]
    apply List.map_congr_left
    intro other _
    by_cases hother : key other = key row
    · simp [hother]
    · simp [hother]
  · rw [if_neg (fun hp => h (hpresent.1 hp)), if_neg h, List.map_append, List.map_singleton]

theorem nodup_upsert (hrows : (rows.map key).Nodup) (row : ρ) :
    ((upsert key row rows).map key).Nodup := by
  rw [map_upsert]
  split
  · exact hrows
  · rename_i h
    rw [List.nodup_append_comm]
    exact List.nodup_cons.2 ⟨h, hrows⟩

theorem lookup_replace (row : ρ) {k' : κ} :
    lookup key (rows.map fun other => if key other = key row then row else other) k' =
      (lookup key rows k').map fun other => if key other = key row then row else other := by
  rw [lookup, List.find?_map, lookup]
  congr 1
  apply congrArg (fun p => rows.find? p)
  funext other
  by_cases h : key other = key row
  · simp [h]
  · simp [h]

theorem lookup_upsert (row : ρ) {k' : κ} :
    lookup key (upsert key row rows) k' = if k' = key row then some row else lookup key rows k' := by
  rw [upsert]
  by_cases hk : k' = key row
  · subst hk
    rw [if_pos rfl]
    split
    · rename_i h
      obtain ⟨other, hother⟩ := Option.isSome_iff_exists.1 h
      rw [lookup_replace, hother, Option.map_some, if_pos (lookup_key hother)]
    · rename_i h
      have habsent : rows.find? (fun other => decide (key other = key row)) = none := by
        simpa [lookup] using h
      rw [lookup, List.find?_append, habsent]
      simp
  · rw [if_neg hk]
    split
    · rw [lookup_replace]
      cases hfound : lookup key rows k' with
      | none => rfl
      | some other => rw [Option.map_some, if_neg (fun heq => hk ((lookup_key hfound).symm.trans heq))]
    · rw [lookup, List.find?_append, lookup]
      simp [Ne.symm hk]

end Paranoid.KeyedRows
