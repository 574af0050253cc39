import Mathlib.Data.List.Infix
import Mathlib.Data.Set.Function
import Mathlib.Data.String.Basic

namespace Paranoid.SeparatedParts

variable {α : Type} {c : α} {rest : List α} {parts others : List (List α)} {p q t : List α}

/-- Every part is followed by the separator, the last one included. -/
def joined (separator : List α) (parts : List (List α)) : List α := parts.flatMap (· ++ separator)

@[simp] theorem joined_nil (separator : List α) : joined separator [] = [] := rfl

@[simp] theorem joined_cons (separator p : List α) (parts : List (List α)) :
    joined separator (p :: parts) = p ++ separator ++ joined separator parts := rfl

theorem joined_append (separator : List α) (parts others : List (List α)) :
    joined separator (parts ++ others) = joined separator parts ++ joined separator others :=
  List.flatMap_append

/-- A part ends at the first separator. -/
theorem first_part_unique (hp : c ∉ p) (hq : c ∉ q)
    (hpt : p ++ [c] <+: t) (hqt : q ++ [c] <+: t) : p = q := by
  induction p generalizing q t with
  | nil =>
      obtain ⟨u, rfl⟩ := hpt
      cases q with
      | nil => rfl
      | cons d q =>
          obtain ⟨rfl, -⟩ := List.cons_prefix_cons.1 hqt
          exact absurd List.mem_cons_self hq
  | cons d p ih =>
      obtain ⟨u, rfl⟩ := hpt
      cases q with
      | nil =>
          obtain ⟨rfl, -⟩ := List.cons_prefix_cons.1 hqt
          exact absurd List.mem_cons_self hp
      | cons e q =>
          obtain ⟨rfl, htail⟩ := List.cons_prefix_cons.1 hqt
          rw [ih (List.not_mem_of_not_mem_cons hp)
            (List.not_mem_of_not_mem_cons hq) (List.prefix_append _ u) htail]

theorem before_unique {u : List α} (hp : c ∉ p) (hq : c ∉ q) (h : p ++ c :: t = q ++ c :: u) :
    p = q ∧ t = u := by
  have hfirst : p = q := by
    have hstart (p t : List α) : p ++ [c] <+: p ++ c :: t := (List.prefix_append_right_inj p).2 ⟨t, rfl⟩
    exact first_part_unique hp hq (hstart p t) (h ▸ hstart q u)
  subst hfirst
  exact ⟨rfl, (List.cons.inj (List.append_cancel_left h)).2⟩

theorem after_unique {u : List α} (ht : c ∉ t) (hu : c ∉ u) (h : p ++ c :: t = q ++ c :: u) :
    p = q ∧ t = u := by
  have hreverse : t.reverse ++ c :: p.reverse = u.reverse ++ c :: q.reverse := by
    simpa using congrArg List.reverse h
  obtain ⟨hlast, hrest⟩ := before_unique (mt List.mem_reverse.1 ht) (mt List.mem_reverse.1 hu) hreverse
  exact ⟨List.reverse_injective hrest, List.reverse_injective hlast⟩

/-- Of two joins of parts that do not contain the separator's first letter, both at the
start of one text, one has all the parts of the other. -/
theorem parts_comparable (hparts : ∀ p ∈ parts, c ∉ p) (hothers : ∀ q ∈ others, c ∉ q)
    (h : joined (c :: rest) parts <+: t) (h' : joined (c :: rest) others <+: t) :
    parts <+: others ∨ others <+: parts := by
  induction parts generalizing others t with
  | nil => exact .inl List.nil_prefix
  | cons p parts ih =>
      cases others with
      | nil => exact .inr List.nil_prefix
      | cons q others =>
          rw [joined_cons, List.append_assoc] at h h'
          have hfirst : p = q := by
            apply first_part_unique (hparts p List.mem_cons_self) (hothers q List.mem_cons_self)
            · exact .trans ⟨rest ++ joined (c :: rest) parts, by simp⟩ h
            · exact .trans ⟨rest ++ joined (c :: rest) others, by simp⟩ h'
          subst hfirst
          obtain ⟨u, rfl⟩ := h
          rw [List.append_assoc, List.append_assoc,
            List.prefix_append_right_inj, List.prefix_append_right_inj] at h'
          rw [List.cons_prefix_cons, List.cons_prefix_cons]
          have := ih (fun p hp => hparts p (List.mem_cons_of_mem _ hp))
            (fun q hq => hothers q (List.mem_cons_of_mem _ hq)) (List.prefix_append _ u) h'
          tauto

/-- Joined parts start with other joined parts where the parts do. -/
theorem joined_prefix_iff (hparts : ∀ p ∈ parts, c ∉ p) (hothers : ∀ q ∈ others, c ∉ q) :
    joined (c :: rest) parts <+: joined (c :: rest) others ↔ parts <+: others := by
  constructor
  · intro h
    rcases parts_comparable hparts hothers h (List.prefix_refl _) with hle | ⟨more, rfl⟩
    · exact hle
    · rw [joined_append] at h
      have hlength := h.length_le
      cases more with
      | nil => simp
      | cons p more => simp at hlength
  · rintro ⟨more, rfl⟩
    rw [joined_append]
    exact List.prefix_append _ _

theorem toList_intercalate_append (separator : String) {parts : List String} (h : parts ≠ []) :
    (separator.intercalate parts ++ separator).toList =
      joined separator.toList (parts.map String.toList) := by
  induction parts with
  | nil => exact absurd rfl h
  | cons p parts ih =>
      cases parts with
      | nil => simp
      | cons q parts =>
          have := ih (List.cons_ne_nil q parts)
          simp_all [String.intercalate_cons_cons]

theorem intercalate_injOn {separator : String} {c : Char} {rest : List Char}
    (hseparator : separator.toList = c :: rest) :
    Set.InjOn separator.intercalate {parts | parts ≠ [] ∧ ∀ p ∈ parts, c ∉ p.toList} := by
  intro parts hparts others hothers h
  have hjoined : joined (c :: rest) (parts.map String.toList) =
    joined (c :: rest) (others.map String.toList) := by
    rw [← hseparator, ← toList_intercalate_append separator
      hparts.1, ← toList_intercalate_append separator hothers.1,
      h]
  have hfree (texts : List String) (htexts : ∀ p ∈ texts, c ∉ p.toList) :
    ∀ p ∈ texts.map String.toList, c ∉ p :=
    List.forall_mem_map.2 htexts
  have hle := (joined_prefix_iff (hfree parts hparts.2) (hfree others hothers.2)).1
    ⟨[], (List.append_nil _).trans hjoined⟩
  have hge := (joined_prefix_iff (hfree others hothers.2) (hfree parts hparts.2)).1
    ⟨[], (List.append_nil _).trans hjoined.symm⟩
  exact List.map_injective_iff.2 (fun _ _ => String.toList_injective)
    (hle.eq_of_length_le hge.length_le)

end Paranoid.SeparatedParts
