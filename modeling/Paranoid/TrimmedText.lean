import Mathlib.Data.List.DropRight
import Mathlib.Data.List.TakeWhile

namespace Paranoid.TrimmedText

open List

section Trim

variable {α : Type} {isSpace isOther : α → Bool} {text : List α}

def trim (isSpace : α → Bool) (text : List α) : List α := (text.dropWhile isSpace).rdropWhile isSpace

/-- With no space at either end. -/
def Trimmed (isSpace : α → Bool) (text : List α) : Prop :=
  (∀ c ∈ text.head?, isSpace c = false) ∧ ∀ c ∈ text.getLast?, isSpace c = false

theorem dropWhile_eq_self_iff_head? :
    text.dropWhile isSpace = text ↔ ∀ c ∈ text.head?, isSpace c = false := by
  cases text with
  | nil => simp
  | cons c text => simp [dropWhile_eq_self_iff]

theorem rdropWhile_eq_self_iff_getLast? :
    text.rdropWhile isSpace = text ↔ ∀ c ∈ text.getLast?, isSpace c = false := by
  rw [rdropWhile_eq_self_iff]
  constructor
  · intro h c hc
    have hne : text ≠ [] := by
      rintro rfl
      cases hc
    rw [getLast?_eq_some_getLast hne, Option.mem_some_iff] at hc
    subst hc
    exact (Bool.not_eq_true _).mp (h hne)
  · intro h hne
    rw [Bool.not_eq_true]
    exact h _ (getLast?_eq_some_getLast hne)

theorem trim_within (isSpace : α → Bool) (text : List α) :
    trim isSpace text <+: text.dropWhile isSpace ∧ text.dropWhile isSpace <:+ text :=
  ⟨ rdropWhile_prefix isSpace _, dropWhile_suffix isSpace⟩

theorem length_trim_le (isSpace : α → Bool) (text : List α) :
    (trim isSpace text).length ≤ text.length :=
  (trim_within isSpace text).1.length_le.trans (trim_within isSpace text).2.length_le

theorem trim_eq_self_iff : trim isSpace text = text ↔ Trimmed isSpace text := by
  rw [Trimmed, ← dropWhile_eq_self_iff_head?, ← rdropWhile_eq_self_iff_getLast?]
  constructor
  · intro h
    -- nothing was dropped at the one end, nor then at the other
    have hlength : text.length ≤ (text.dropWhile isSpace).length := by
      calc text.length = (trim isSpace text).length := by rw [h]
        _ ≤ (text.dropWhile isSpace).length := (trim_within isSpace text).1.length_le
    have hdrop : text.dropWhile isSpace = text := (dropWhile_suffix isSpace).eq_of_length_le hlength
    rw [trim, hdrop] at h
    exact ⟨hdrop, h⟩
  · rintro ⟨hdrop, hback⟩
    rw [trim, hdrop, hback]

theorem trim_cons_space {c : α} (hc : isSpace c = true) :
    trim isSpace (c :: text) = trim isSpace text := by
  rw [trim, dropWhile_cons_of_pos hc, ← trim]

theorem Trimmed.mono (h : Trimmed isSpace text) (hother : ∀ c, isOther c = true → isSpace c = true) :
    Trimmed isOther text := by
  have hkeep : ∀ c, isSpace c = false → isOther c = false := fun c hc => by
    cases hother' : isOther c with
    | false => rfl
    | true => rw [hother c hother'] at hc; cases hc
  exact ⟨fun c hc => hkeep c (h.1 c hc), fun c hc => hkeep c (h.2 c hc)⟩

theorem trimmed_of_forall (h : ∀ c ∈ text, isSpace c = false) : Trimmed isSpace text :=
  ⟨fun c hc => h c (mem_of_mem_head? hc), fun c hc => h c (mem_of_mem_getLast? hc)⟩

theorem trimmed_of_all (h : (text.all fun c => !isSpace c) = true) : Trimmed isSpace text := by
  refine trimmed_of_forall fun c hc => ?_
  have hclear := all_eq_true.1 h c hc
  rwa [Bool.not_eq_true'] at hclear

theorem intercalate_pair_cons (first second : α) (p q : List α) (parts : List (List α)) :
    [first, second].intercalate (p :: q :: parts) = p ++ first :: second :: [first,
      second].intercalate (q :: parts) := by
  rw [intercalate_cons_cons]
  simp

end Trim

section Cut

variable {α : Type} [DecidableEq α] {separator space c : α} {text name value : List α}

/-- What stands before the first separator, and what behind it. -/
def cut (separator : α) (text : List α) : Option (List α × List α) :=
  if separator ∈ text then some (text.takeWhile (· ≠ separator), (text.dropWhile (· ≠ separator)).tail) else none

theorem takeWhile_append_separator (h : separator ∉ name) (rest : List α) :
    (name ++ separator :: rest).takeWhile (· ≠ separator) = name := by
  have hname : ∀ c ∈ name, decide (c ≠ separator) = true :=
    fun c hc => decide_eq_true fun he => h (he ▸ hc)
  rw [takeWhile_append_of_pos hname, takeWhile_cons_of_neg (by simp), append_nil]

theorem takeWhile_of_not_mem (h : separator ∉ text) : text.takeWhile (· ≠ separator) = text :=
  takeWhile_eq_self_iff.2 fun _ hc => decide_eq_true fun he => h (he ▸ hc)

theorem not_mem_takeWhile (separator : α) (text : List α) :
    separator ∉ text.takeWhile (· ≠ separator) := by
  intro h
  have hne := mem_takeWhile_imp h
  rw [decide_eq_true_iff] at hne
  exact hne rfl

theorem cut_append (h : separator ∉ name) (value : List α) :
    cut separator (name ++ separator :: value) = some (name, value) := by
  have hname : ∀ c ∈ name, decide (c ≠ separator) = true :=
    fun c hc => decide_eq_true fun he => h (he ▸ hc)
  rw [cut, if_pos (mem_append_right _ mem_cons_self),
    takeWhile_append_separator h, dropWhile_append_of_pos hname,
    dropWhile_cons_of_neg (by simp), tail_cons]

theorem cut_of_not_mem (h : separator ∉ text) : cut separator text = none := if_neg h

theorem cut_eq_some (h : cut separator text = some (name, value)) :
    separator ∉ name ∧ text = name ++ separator :: value := by
  by_cases hmem : separator ∈ text
  · rw [cut, if_pos hmem, Option.some.injEq, Prod.mk.injEq] at h
    obtain ⟨rfl, rfl⟩ := h
    refine ⟨not_mem_takeWhile separator text, ?_⟩
    have hdrop : text.dropWhile (· ≠ separator) ≠ [] := by
      rw [Ne, dropWhile_eq_nil_iff]
      exact fun hall => absurd rfl (of_decide_eq_true (hall separator hmem))
    have hhead : (text.dropWhile (· ≠ separator)).head hdrop = separator := by
      have hnot := head_dropWhile_not (· ≠ separator) hdrop
      simpa using hnot
    have hcons : text.dropWhile (· ≠ separator) =
      separator :: (text.dropWhile (· ≠ separator)).tail := by
      conv_lhs => rw [← cons_head_tail hdrop, hhead]
    calc text = text.takeWhile (· ≠ separator) ++ text.dropWhile (· ≠ separator) :=
      takeWhile_append_dropWhile.symm
      _ = text.takeWhile (· ≠ separator) ++ separator :: (text.dropWhile (· ≠ separator)).tail :=
        congrArg _ hcons
  · rw [cut_of_not_mem hmem] at h
    cases h

/-- Parts that the separator with a space behind it divides are found again, the later ones with the space before them. -/
theorem splitOn_intercalate_spaced (hspace : space ≠ separator) {part : List α} {parts : List (List α)}
    (hpart : separator ∉ part) (hparts : ∀ p ∈ parts, separator ∉ p) :
    ([separator, space].intercalate (part :: parts)).splitOn separator =
    part :: parts.map (space :: ·) := by
  induction parts generalizing part with
  | nil => rw [intercalate_singleton, splitOn_eq_singleton hpart, map_nil]
  | cons p parts ih =>
      rw [forall_mem_cons] at hparts
      have hspaced : separator ∉ space :: p :=
        fun hmem => (mem_cons.1 hmem).elim (fun he => hspace he.symm) hparts.1
      have hinto : space :: [separator, space].intercalate (p :: parts) =
          [separator, space].intercalate ((space :: p) :: parts) := by
        cases parts with
        | nil => rw [intercalate_singleton, intercalate_singleton]
        | cons q parts => rw [intercalate_pair_cons, intercalate_pair_cons, cons_append]
      rw [intercalate_pair_cons, splitOn_append_cons_self_of_not_mem hpart,
        hinto, ih hspaced hparts.2, map_cons]

end Cut

end Paranoid.TrimmedText
