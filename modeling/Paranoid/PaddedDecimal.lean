import Mathlib.Data.List.Induction
import Mathlib.Data.String.Basic

namespace Paranoid.PaddedDecimal

def digitChar (d : Nat) : Char := Char.ofNat (48 + d)

def digitValue (c : Char) : Nat := c.toNat - 48

/-- The decimal digits of a number, with zeros in front up to a width. -/
def padded : Nat → Nat → List Char
  | 0, _ => []
  | width + 1, n => padded width (n / 10) ++ [digitChar (n % 10)]

def value (chars : List Char) : Nat := chars.foldl (fun n c => n * 10 + digitValue c) 0

theorem digitChar_spec : ∀ d < 10, (digitChar d).isDigit ∧ digitValue (digitChar d) = d := by decide

theorem digitChar_lt : ∀ d < 10, ∀ e < 10, digitChar d < digitChar e ↔ d < e := by decide

variable {width a b : Nat} {chars : List Char}

theorem value_concat (chars : List Char) (c : Char) :
    value (chars ++ [c]) = value chars * 10 + digitValue c := by
  rw [value, List.foldl_append]
  rfl

theorem digitChar_digitValue {c : Char} (h : c.isDigit) :
    digitValue c < 10 ∧ digitChar (digitValue c) = c := by
  rw [Char.isDigit, Bool.and_eq_true, decide_eq_true_iff,
    decide_eq_true_iff, ge_iff_le, UInt32.le_iff_toNat_le, UInt32.le_iff_toNat_le] at h
  have hlow : 48 ≤ c.toNat := h.1
  have hhigh : c.toNat ≤ 57 := h.2
  refine ⟨by rw [digitValue]; omega, ?_⟩
  rw [digitChar, digitValue, Nat.add_sub_cancel' hlow, Char.ofNat_toNat]

theorem length_padded (width n : Nat) : (padded width n).length = width := by
  induction width generalizing n with
  | zero => rfl
  | succ width ih => rw [padded, List.length_append, ih, List.length_singleton]

theorem forall_mem_padded {p : Char → Prop} (h : ∀ d < 10, p (digitChar d)) (width n : Nat) :
    ∀ c ∈ padded width n, p c := by
  induction width generalizing n with
  | zero => exact fun c hc => nomatch hc
  | succ width ih =>
      intro c hc
      rcases List.mem_append.1 hc with hc | hc
      · exact ih (n / 10) c hc
      · rw [List.mem_singleton.1 hc]
        exact h _ (Nat.mod_lt n (by decide))

theorem isDigit_padded (width n : Nat) : ∀ c ∈ padded width n, c.isDigit :=
  forall_mem_padded (fun d hd => (digitChar_spec d hd).1) width n

theorem value_padded (h : a < 10 ^ width) : value (padded width a) = a := by
  induction width generalizing a with
  | zero =>
      rw [Nat.pow_zero, Nat.lt_one_iff] at h
      exact h.symm
  | succ width ih =>
      have hdiv : a / 10 < 10 ^ width := by
        rw [Nat.div_lt_iff_lt_mul (by decide), ← Nat.pow_succ]
        exact h
      have hdigit := (digitChar_spec _ (Nat.mod_lt a (by decide : 0 < 10))).2
      rw [padded, value_concat, ih hdiv, hdigit]
      omega

/-- Digits are those of their value, in their width. -/
theorem padded_value (h : ∀ c ∈ chars, c.isDigit) : padded chars.length (value chars) = chars := by
  induction chars using List.reverseRecOn with
  | nil => rfl
  | append_singleton chars c ih =>
      rw [List.forall_mem_append, List.forall_mem_singleton] at h
      obtain ⟨hdigit, hchar⟩ := digitChar_digitValue h.2
      have hdiv : (value chars * 10 + digitValue c) / 10 = value chars := by omega
      have hmod : (value chars * 10 + digitValue c) % 10 = digitValue c := by omega
      rw [List.length_append, List.length_singleton, value_concat, padded, hdiv, hmod, ih h.1, hchar]

theorem padded_inj (ha : a < 10 ^ width) (hb : b < 10 ^ width)
    (h : padded width a = padded width b) : a = b := by
  rw [← value_padded ha, h, value_padded hb]

/-- Texts of one length are ordered by what comes before their last characters first. -/
theorem concat_lt_concat {α : Type} [LT α] {xs ys : List α} (h : xs.length = ys.length) (x y : α) :
    xs ++ [x] < ys ++ [y] ↔ xs < ys ∨ xs = ys ∧ x < y := by
  induction xs generalizing ys with
  | nil =>
      obtain rfl := List.length_eq_zero_iff.1 h.symm
      simp [List.cons_lt_cons_iff]
  | cons z xs ih =>
      cases ys with
      | nil => cases h
      | cons w ys =>
          rw [List.cons_append, List.cons_append, List.cons_lt_cons_iff,
            List.cons_lt_cons_iff, ih (Nat.succ.inj h)]
          constructor
          · rintro (hlt | ⟨rfl, hlt | ⟨rfl, hlt⟩⟩)
            · exact .inl (.inl hlt)
            · exact .inl (.inr ⟨rfl, hlt⟩)
            · exact .inr ⟨rfl, hlt⟩
          · rintro ((hlt | ⟨rfl, hlt⟩) | ⟨heq, hlt⟩)
            · exact .inl hlt
            · exact .inr ⟨rfl, .inl hlt⟩
            · obtain ⟨rfl, rfl⟩ := List.cons.inj heq
              exact .inr ⟨rfl, .inr ⟨rfl, hlt⟩⟩

/-- Numbers of one width are ordered as their digits are. -/
theorem padded_lt (ha : a < 10 ^ width) (hb : b < 10 ^ width) :
    padded width a < padded width b ↔ a < b := by
  induction width generalizing a b with
  | zero =>
      rw [Nat.pow_zero, Nat.lt_one_iff] at ha hb
      subst ha
      subst hb
      simp [padded]
  | succ width ih =>
      have hdiv : ∀ n, n < 10 ^ (width + 1) → n / 10 < 10 ^ width := by
        intro n hn
        rw [Nat.div_lt_iff_lt_mul (by decide), ← Nat.pow_succ]
        exact hn
      have hlength : (padded width (a / 10)).length = (padded width (b / 10)).length := by
        rw [length_padded, length_padded]
      rw [padded, padded, concat_lt_concat hlength, ih (hdiv a ha) (hdiv b hb),
        digitChar_lt _ (Nat.mod_lt a (by decide)) _ (Nat.mod_lt b (by decide))]
      constructor
      · rintro (hlt | ⟨heq, hlt⟩)
        · omega
        · have := padded_inj (hdiv a ha) (hdiv b hb) heq
          omega
      · intro hlt
        by_cases hdivs : a / 10 = b / 10
        · exact .inr ⟨by rw [hdivs], by omega⟩
        · exact .inl (by omega)

end Paranoid.PaddedDecimal
