import Mathlib.Data.List.Sort

namespace Paranoid.Pagination

open List

variable {α β κ ε : Type}

/-- The rows of a page, and the cursor to the next one. -/
structure Page (α κ : Type) where
  rows : List α
  next : Option κ

/-- The pages from a cursor on, up to the one that has no next. -/
inductive Visits (pager : Option κ → Except ε (Page α κ)) : Option κ → List (Page α κ) → Prop
  | last {cursor : Option κ} {rows : List α} (h : pager cursor = .ok ⟨rows, none⟩) : Visits pager cursor [⟨rows, none⟩]
  | more {cursor : Option κ} {rows : List α} {next : κ} {pages : List (Page α κ)} (h : pager cursor = .ok ⟨rows, some next⟩)
      (hrest : Visits pager (some next) pages) : Visits pager cursor (⟨rows, some next⟩ :: pages)

theorem Visits.unique {pager : Option κ → Except ε (Page α κ)}
    {cursor : Option κ} {pages pages' : List (Page α κ)}
    (h : Visits pager cursor pages) (h' : Visits pager cursor pages') : pages = pages' := by
  induction h generalizing pages' with
  | last h =>
      cases h' with
      | last h' => cases h.symm.trans h'; rfl
      | more h' _ => cases h.symm.trans h'
  | more h _ ih =>
      cases h' with
      | last h' => cases h.symm.trans h'
      | more h' hrest =>
          cases h.symm.trans h'
          rw [ih hrest]

section Decoding

variable {keyOf : α → κ} {key : β → κ} {decode : α → Except ε β}

/-- Every row has a decoding, under its own key. -/
def Decodes (keyOf : α → κ) (key : β → κ) (decode : α → Except ε β) (rows : List α) : Prop :=
  ∀ a ∈ rows, ∃ b, decode a = .ok b ∧ key b = keyOf a

/-- What a row and its decoding have to do with each other. -/
def Decoded (keyOf : α → κ) (key : β → κ) (decode : α → Except ε β) (a : α) (b : β) : Prop :=
  decode a = .ok b ∧ key b = keyOf a

theorem mapM_decode {xs : List α} (h : Decodes keyOf key decode xs) :
    ∃ ys, xs.mapM decode = .ok ys ∧ Forall₂ (Decoded keyOf key decode) xs ys := by
  induction xs with
  | nil => exact ⟨[], rfl, .nil⟩
  | cons a xs ih =>
      obtain ⟨b, hb, hkey⟩ := h a mem_cons_self
      obtain ⟨ys, hys, hall⟩ := ih fun x hx => h x (mem_cons_of_mem a hx)
      exact ⟨b :: ys, by rw [mapM_cons, hb, hys]; rfl, .cons ⟨hb, hkey⟩ hall⟩

theorem forall₂_map_ok {xs : List α} {ys : List β} (h : Forall₂ (Decoded keyOf key decode) xs ys) :
    ys.map Except.ok = xs.map decode := by
  induction h with
  | nil => rfl
  | cons hab _ ih => rw [map_cons, map_cons, ih, hab.1]

theorem forall₂_keys {xs : List α} {ys : List β} (h : Forall₂ (Decoded keyOf key decode) xs ys) :
    ys.map key = xs.map keyOf := by
  induction h with
  | nil => rfl
  | cons hab _ ih => rw [map_cons, map_cons, ih, hab.2]

theorem getLast?_decoded {xs : List α} {ys : List β} (h : Forall₂ (Decoded keyOf key decode) xs ys) :
    ys.getLast?.map key = xs.getLast?.map keyOf := by
  rw [← getLast?_map, ← getLast?_map, forall₂_keys h]

end Decoding

variable [LinearOrder κ]

section Fetching

variable (key : α → κ)

/-- A cursor stands behind the row whose key it is. -/
def behind (cursor : Option κ) (a : α) : Bool := cursor.all (· < key a)

/-- `WHERE key > cursor ORDER BY key ASC` -/
def remaining (rows : List α) (cursor : Option κ) : List α :=
  (rows.filter (behind key cursor)).insertionSort fun a b => key a ≤ key b

/-- The row behind a full page tells of a next one. -/
def truncate (limit : Nat) (fetched : List α) : Page α κ :=
  if limit < fetched.length then ⟨fetched.take limit, (fetched.take limit).getLast?.map key⟩ else ⟨fetched, none⟩

variable {key} {rows : List α} {cursor : Option κ}

theorem behind_iff {a : α} : behind key cursor a = true ↔ ∀ c ∈ cursor, c < key a := by
  cases cursor <;> simp [behind]

theorem remaining_perm : (remaining key rows cursor).Perm (rows.filter (behind key cursor)) :=
  perm_insertionSort _ _

theorem mem_remaining {a : α} : a ∈ remaining key rows cursor ↔ a ∈ rows ∧ behind key cursor a := by
  rw [remaining_perm.mem_iff, mem_filter]

theorem pairwise_remaining (hkeys : (rows.map key).Nodup) :
    (remaining key rows cursor).Pairwise fun a b => key a < key b := by
  have hle : (remaining key rows cursor).Pairwise fun a b => key a ≤ key b := pairwise_insertionSort _ _
  have hne : ((remaining key rows cursor).map key).Nodup := by
    rw [(remaining_perm.map key).nodup_iff]
    exact hkeys.sublist (filter_sublist.map key)
  rw [Nodup, pairwise_map] at hne
  exact (hle.and hne).imp fun h => lt_of_le_of_ne h.1 h.2

theorem behind_some {a b : α} (ha : behind key cursor a) (hlt : key a < key b) :
    behind key cursor b := by
  cases cursor with
  | none => rfl
  | some c => exact decide_eq_true ((of_decide_eq_true ha).trans hlt)

/-- Behind the last row of a page lies what the page has left. -/
theorem remaining_next (hkeys : (rows.map key).Nodup) {page rest : List α} {a : α}
    (h : remaining key rows cursor = page ++ rest) (hlast : page.getLast? = some a) :
    remaining key rows (some (key a)) = rest := by
  obtain ⟨before, rfl⟩ := getLast?_eq_some_iff.1 hlast
  have hsorted : (remaining key rows cursor).Pairwise fun b c => key b < key c :=
    pairwise_remaining hkeys
  have hnext : (remaining key rows (some (key a))).Pairwise fun b c => key b < key c :=
    pairwise_remaining hkeys
  have ha : behind key cursor a := (mem_remaining.1 (h ▸ by simp : a ∈ remaining key rows cursor)).2
  rw [h] at hsorted
  obtain ⟨hpage, hrest, hcross⟩ := pairwise_append.1 hsorted
  have hbefore := (pairwise_append.1 hpage).2.2
  have hmem : ∀ b, b ∈ remaining key rows (some (key a)) ↔ b ∈ rest := by
    intro b
    constructor
    · intro hb
      obtain ⟨hrow, hlt⟩ := mem_remaining.1 hb
      have hlt : key a < key b := of_decide_eq_true hlt
      have hall : b ∈ (before ++ [a]) ++ rest := h ▸ mem_remaining.2 ⟨hrow, behind_some ha hlt⟩
      rcases mem_append.1 hall with hpage | hb
      · rcases mem_append.1 hpage with hb | hb
        · exact absurd hlt (hbefore b hb a mem_cons_self).not_gt
        · rw [mem_singleton.1 hb] at hlt
          exact absurd hlt (lt_irrefl _)
      · exact hb
    · intro hb
      have hall : b ∈ remaining key rows cursor := h ▸ mem_append_right _ hb
      refine mem_remaining.2 ⟨(mem_remaining.1 hall).1, decide_eq_true ?_⟩
      exact hcross a (mem_append_right _ mem_cons_self) b hb
  have hnodup : ∀ {l : List α}, (l.Pairwise fun a b => key a < key b) → l.Nodup :=
    fun h => h.imp fun hlt => by rintro rfl; exact lt_irrefl _ hlt
  refine Perm.eq_of_pairwise (fun b c _ _ hbc hcb => absurd hcb hbc.not_gt) hnext hrest ?_
  exact (perm_ext_iff_of_nodup (hnodup hnext) (hnodup hrest)).2 hmem

end Fetching

section Listing

variable (keyOf : α → κ) (key : β → κ) (decode : α → Except ε β) (limit : Nat) (rows : List α)

/-- All rows that the query fetches are decoded, the one behind the page too. -/
def listing (cursor : Option κ) : Except ε (Page β κ) := do
  let fetched ← ((remaining keyOf rows cursor).take (limit + 1)).mapM decode
  return truncate key limit fetched

/-- What following the cursors of a listing shows of the rows. -/
structure Partitions (pager : Option κ → Except ε (Page β κ)) : Prop where
  visits : ∃ pages, Visits pager none pages
  unique : ∀ pages pages', Visits pager none pages → Visits pager none pages' → pages = pages'
  once : ∀ pages, Visits pager none pages →
    ((pages.flatMap Page.rows).map Except.ok).Perm (rows.map decode)
  ordered : ∀ pages, Visits pager none pages → ((pages.flatMap Page.rows).map key).Pairwise (· < ·)
  next : ∀ cursor page, pager cursor = .ok page → (page.next.isSome ↔
    ∃ a ∈ rows, (∀ c ∈ cursor, c < keyOf a) ∧ ∀ b ∈ page.rows, key b < keyOf a)

variable {keyOf key decode limit rows} {cursor : Option κ}

/-- What a page shows of the rows that remain. -/
structure Shows (keyOf : α → κ) (key : β → κ) (decode : α → Except ε β) (limit : Nat) (all : List α)
    (page : Page β κ) : Prop where
  rows : Forall₂ (Decoded keyOf key decode) (all.take limit) page.rows
  next : page.next = if limit < all.length then (all.take limit).getLast?.map keyOf else none

theorem listing_shows (hdecode : Decodes keyOf key decode rows) (cursor : Option κ) :
    ∃ page, listing keyOf key decode limit rows cursor = .ok page ∧
      Shows keyOf key decode limit (remaining keyOf rows cursor) page := by
  have hfetched : Decodes keyOf key decode ((remaining keyOf rows cursor).take (limit + 1)) :=
    fun a ha => hdecode a (mem_remaining.1 (mem_of_mem_take ha)).1
  obtain ⟨fetched, hmap, hall⟩ := mapM_decode hfetched
  have hlength := hall.length_eq
  rw [length_take] at hlength
  refine ⟨truncate key limit fetched, by rw [listing, hmap]; rfl, ?_⟩
  unfold truncate
  split
  · rename_i hmore
    have hlt : limit < (remaining keyOf rows cursor).length := by omega
    have htake : Forall₂ (Decoded keyOf key decode)
      ((remaining keyOf rows cursor).take limit) (fetched.take limit) := by
      have h := forall₂_take limit hall
      rwa [take_take, Nat.min_eq_left (Nat.le_succ limit)] at h
    exact ⟨htake, by rw [if_pos hlt]; exact getLast?_decoded htake⟩
  · rename_i hmore
    have hle : (remaining keyOf rows cursor).length ≤ limit := by omega
    rw [take_of_length_le (by omega)] at hall
    exact ⟨by rwa [take_of_length_le hle], by rw [if_neg (by omega)]⟩

/-- Following the cursors ends, and shows what remains, in order. -/
theorem visits_listing (hkeys : (rows.map keyOf).Nodup)
    (hdecode : Decodes keyOf key decode rows) (hlimit : 0 < limit)
    (cursor : Option κ) : ∃ pages, Visits (listing keyOf key decode limit rows) cursor pages ∧
      Forall₂ (Decoded keyOf key decode) (remaining keyOf rows cursor) (pages.flatMap Page.rows) := by
  generalize hn : (remaining keyOf rows cursor).length = n
  induction n using Nat.strong_induction_on generalizing cursor with
  | _ n ih =>
    obtain ⟨⟨page, next⟩, hpage, hrows, hnext⟩ :=
      @listing_shows _ _ _ _ _ keyOf key decode limit rows hdecode cursor
    dsimp only at hrows hnext
    by_cases hmore : limit < (remaining keyOf rows cursor).length
    · rw [if_pos hmore] at hnext
      have hne : (remaining keyOf rows cursor).take limit ≠ [] := by
        rw [← length_pos_iff, length_take]
        omega
      obtain ⟨a, hlast⟩ := Option.isSome_iff_exists.1 (getLast?_isSome.2 hne)
      rw [hlast, Option.map_some] at hnext
      subst hnext
      have hrest : remaining keyOf rows (some (keyOf a)) = (remaining keyOf rows cursor).drop limit :=
        remaining_next hkeys (take_append_drop limit _).symm hlast
      obtain ⟨pages, hvisits, hall⟩ := ih _ (by rw [hrest, length_drop]; omega) (some (keyOf a)) rfl
      refine ⟨_, .more hpage hvisits, ?_⟩
      rw [hrest] at hall
      have happend : Forall₂ (Decoded keyOf key decode)
          ((remaining keyOf rows cursor).take limit ++
            (remaining keyOf rows cursor).drop limit) (page ++ _) :=
        rel_append hrows hall
      rwa [take_append_drop] at happend
    · rw [if_neg hmore] at hnext
      subst hnext
      rw [take_of_length_le (by omega)] at hrows
      exact ⟨_, .last hpage, by simpa using hrows⟩

theorem listing_partitions (hkeys : (rows.map keyOf).Nodup)
    (hdecode : Decodes keyOf key decode rows) (hlimit : 0 < limit) :
    Partitions keyOf key decode rows (listing keyOf key decode limit rows) := by
  obtain ⟨pages, hvisits, hall⟩ := visits_listing hkeys hdecode hlimit none
  have hremaining : (remaining keyOf rows none).Perm rows := by
    have h : (remaining keyOf rows none).Perm (rows.filter (behind keyOf none)) := remaining_perm
    have hall : rows.filter (behind keyOf none) = rows := filter_eq_self.2 fun _ _ => rfl
    rwa [hall] at h
  refine ⟨⟨pages, hvisits⟩, fun _ _ h h' => h.unique h',
    fun other hother => ?_, fun other hother => ?_, ?_⟩
  · rw [hother.unique hvisits, forall₂_map_ok hall]
    exact hremaining.map decode
  · rw [hother.unique hvisits, forall₂_keys hall, pairwise_map]
    exact pairwise_remaining hkeys
  · intro cursor page hpage
    obtain ⟨page', hpage', hrows, hnext⟩ :=
      @listing_shows _ _ _ _ _ keyOf key decode limit rows hdecode cursor
    obtain rfl := Except.ok.inj (hpage.symm.trans hpage')
    have hsorted : (remaining keyOf rows cursor).Pairwise fun a b => keyOf a < keyOf b :=
      pairwise_remaining hkeys
    have hkeysPage := forall₂_keys hrows
    rw [hnext]
    constructor
    · intro hsome
      split_ifs at hsome with hmore
      · have hmem := getElem_mem hmore
        obtain ⟨hrow, hbehind⟩ := mem_remaining.1 hmem
        refine ⟨_, hrow, behind_iff.1 hbehind, fun b hb => ?_⟩
        have hkey : key b ∈ ((remaining keyOf rows cursor).take limit).map keyOf :=
          hkeysPage ▸ mem_map_of_mem hb
        obtain ⟨a, ha, hab⟩ := mem_map.1 hkey
        obtain ⟨i, hi, rfl⟩ := mem_take_iff_getElem.1 ha
        rw [← hab]
        exact pairwise_iff_getElem.1 hsorted i limit _ hmore (by omega)
      · cases hsome
    · rintro ⟨a, ha, hcursor, hpast⟩
      by_contra hnone
      have hle : (remaining keyOf rows cursor).length ≤ limit := by
        by_contra hmore
        apply hnone
        rw [if_pos (by omega), Option.isSome_map, getLast?_isSome, ← length_pos_iff, length_take]
        omega
      have hmem : keyOf a ∈ page.rows.map key := by
        rw [hkeysPage, take_of_length_le hle]
        exact mem_map_of_mem (mem_remaining.2 ⟨ha, behind_iff.2 hcursor⟩)
      obtain ⟨b, hb, hab⟩ := mem_map.1 hmem
      exact absurd (hpast b hb) (hab ▸ lt_irrefl _)

end Listing

end Paranoid.Pagination
