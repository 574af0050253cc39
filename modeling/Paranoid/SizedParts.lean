import Paranoid.ByteCodecs

namespace Paranoid.SizedParts

open ByteCodecs List

variable {width : Nat} {part other rest following : Bytes} {parts others : List Bytes}

/-- A part behind its length, in so many bytes. -/
def sized (width : Nat) (part : Bytes) : Bytes := beBytes width part.length ++ part

theorem length_sized (width : Nat) (part : Bytes) :
    (sized width part).length = width + part.length := by
  rw [sized, length_append, length_beBytes]

/-- The length tells where a part ends. -/
theorem sized_inj (hpart : part.length < 256 ^ width) (hother : other.length < 256 ^ width)
    (h : sized width part ++ rest = sized width other ++ following) :
    part = other ∧ rest = following := by
  rw [sized, sized, append_assoc, append_assoc] at h
  obtain ⟨hlengths, hparts⟩ := append_inj h (by rw [length_beBytes, length_beBytes])
  exact append_inj hparts (beBytes_inj hpart hother hlengths)

/-- As many parts make up one text only if they are the same parts. -/
theorem sized_parts_inj (hlength : parts.length = others.length)
    (hparts : ∀ part ∈ parts, part.length < 256 ^ width)
    (hothers : ∀ part ∈ others, part.length < 256 ^ width)
    (h : parts.flatMap (sized width) = others.flatMap (sized width)) :
    parts = others := by
  induction parts generalizing others with
  | nil => exact (eq_nil_of_length_eq_zero hlength.symm).symm
  | cons part parts ih =>
      obtain ⟨other, others, rfl⟩ := exists_cons_of_length_eq_add_one hlength.symm
      rw [forall_mem_cons] at hparts hothers
      rw [flatMap_cons, flatMap_cons] at h
      obtain ⟨rfl, hrest⟩ := sized_inj hparts.1 hothers.1 h
      rw [ih (Nat.succ.inj hlength) hparts.2 hothers.2 hrest]

/-- Nothing in a text is longer than the text. -/
theorem length_le_of_mem_parts (h : part ∈ parts) :
    part.length ≤ (parts.flatMap (sized width)).length := by
  obtain ⟨before, behind, rfl⟩ := append_of_mem h
  rw [flatMap_append, flatMap_cons, length_append, length_append, length_sized]
  omega

end Paranoid.SizedParts
