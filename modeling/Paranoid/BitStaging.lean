import Mathlib.Algebra.Order.Ring.Nat
import Mathlib.Data.List.Induction
import Mathlib.Tactic.Ring

namespace Paranoid.BitStaging

/-- The number that digits spell, the first one counting most. -/
def value (base : Nat) (digits : List Nat) : Nat := digits.foldl (fun sum digit => sum * base + digit) 0

section Values

variable {base digit : Nat} {digits others : List Nat}

@[simp] theorem value_nil : value base [] = 0 := rfl

theorem value_concat : value base (digits ++ [digit]) = value base digits * base + digit := by
  rw [value, List.foldl_append]
  rfl

theorem value_lt (h : ∀ digit ∈ digits, digit < base) : value base digits < base ^ digits.length := by
  induction digits using List.reverseRecOn with
  | nil => simp
  | append_singleton digits digit ih =>
      rw [List.forall_mem_append, List.forall_mem_singleton] at h
      rw [value_concat, List.length_append, List.length_singleton, Nat.pow_succ]
      calc value base digits * base + digit < value base digits * base + base :=
        Nat.add_lt_add_left h.2 _
        _ = (value base digits + 1) * base := by rw [Nat.add_mul, Nat.one_mul]
        _ ≤ base ^ digits.length * base := Nat.mul_le_mul_right _ (ih h.1)

/-- As many digits spell each number once. -/
theorem value_inj (hdigits : ∀ digit ∈ digits, digit < base) (hothers : ∀ digit ∈ others, digit < base)
    (hlength : digits.length = others.length) (h : value base digits = value base others) :
    digits = others := by
  induction digits using List.reverseRecOn generalizing others with
  | nil => exact (List.length_eq_zero_iff.1 hlength.symm).symm
  | append_singleton digits digit ih =>
      rcases List.eq_nil_or_concat others with rfl | ⟨others, other, rfl⟩
      · simp at hlength
      · rw [List.concat_eq_append] at *
        rw [List.forall_mem_append, List.forall_mem_singleton] at hdigits hothers
        rw [value_concat, value_concat] at h
        have hlast : digit = other := by
          have hmod := congrArg (· % base) h
          simpa [Nat.mul_add_mod_of_lt, hdigits.2, hothers.2, Nat.mod_eq_of_lt] using hmod
        subst hlast
        have hvalue := Nat.eq_of_mul_eq_mul_right (Nat.zero_lt_of_lt hdigits.2) (Nat.add_right_cancel h)
        rw [ih hdigits.1 hothers.1 (by simpa using hlength) hvalue]

end Values

/-- Bits that were read and are not yet written: how many, and the number they spell. -/
structure Staging where
  bits : Nat
  count : Nat

/-- A stream of bits is read as digits of one width, and written as digits of another one. -/
structure Cut (inWidth outWidth : Nat) (read written : List Nat) (staging : Staging) : Prop where
  counts : inWidth * read.length = outWidth * written.length + staging.count
  values : value (2 ^ inWidth) read = value (2 ^ outWidth) written * 2 ^ staging.count + staging.bits
  fits : staging.bits < 2 ^ staging.count
  digits : ∀ digit ∈ written, digit < 2 ^ outWidth

section Cuts

variable {inWidth outWidth digit : Nat} {read written : List Nat} {staging : Staging}

theorem Cut.start : Cut inWidth outWidth [] [] ⟨0, 0⟩ where
  counts := by simp
  values := by simp
  fits := by simp
  digits := by simp

theorem Cut.push (h : Cut inWidth outWidth read written staging) (hdigit : digit < 2 ^ inWidth) :
    Cut inWidth outWidth (read ++ [digit]) written
      ⟨staging.bits * 2 ^ inWidth + digit, staging.count + inWidth⟩ where
  counts := by
    rw [List.length_append, List.length_singleton, Nat.mul_add, h.counts, Nat.mul_one, Nat.add_assoc]
  values := by
    rw [value_concat, h.values, Nat.pow_add]
    ring
  fits := by
    calc staging.bits * 2 ^ inWidth + digit < staging.bits * 2 ^ inWidth + 2 ^ inWidth :=
      Nat.add_lt_add_left hdigit _
      _ = (staging.bits + 1) * 2 ^ inWidth := by rw [Nat.add_mul, Nat.one_mul]
      _ ≤ 2 ^ staging.count * 2 ^ inWidth := Nat.mul_le_mul_right _ h.fits
      _ = 2 ^ (staging.count + inWidth) := (Nat.pow_add _ _ _).symm
  digits := h.digits

theorem Cut.pop (h : Cut inWidth outWidth read written staging) (hwidth : outWidth ≤ staging.count) :
    Cut inWidth outWidth read (written ++ [staging.bits / 2 ^ (staging.count - outWidth)])
      ⟨staging.bits % 2 ^ (staging.count - outWidth), staging.count - outWidth⟩ where
  counts := by
    rw [List.length_append, List.length_singleton, Nat.mul_add, h.counts, Nat.mul_one]
    dsimp only
    omega
  values := by
    have hpow : 2 ^ staging.count = 2 ^ outWidth * 2 ^ (staging.count - outWidth) := by
      rw [← Nat.pow_add, Nat.add_sub_cancel' hwidth]
    have hsplit := Nat.div_add_mod staging.bits (2 ^ (staging.count - outWidth))
    rw [value_concat, h.values, hpow, Nat.add_mul, Nat.mul_assoc, Nat.add_assoc,
      Nat.mul_comm (staging.bits / 2 ^ (staging.count - outWidth)), hsplit]
  fits := Nat.mod_lt _ (Nat.two_pow_pos _)
  digits := by
    rw [List.forall_mem_append, List.forall_mem_singleton]
    refine ⟨h.digits, ?_⟩
    rw [Nat.div_lt_iff_lt_mul (Nat.two_pow_pos _), ← Nat.pow_add, Nat.add_sub_cancel' hwidth]
    exact h.fits

/-- The last bits with zeros behind them. -/
theorem Cut.pad (h : Cut inWidth outWidth read written staging) (hcount : staging.count ≤ outWidth) :
    value (2 ^ outWidth) (written ++ [staging.bits * 2 ^ (outWidth - staging.count)]) =
        value (2 ^ inWidth) read * 2 ^ (outWidth - staging.count) ∧
      staging.bits * 2 ^ (outWidth - staging.count) < 2 ^ outWidth := by
  have hpow : 2 ^ outWidth = 2 ^ staging.count * 2 ^ (outWidth - staging.count) := by
    rw [← Nat.pow_add, Nat.add_sub_cancel' hcount]
  constructor
  · rw [value_concat, h.values, Nat.add_mul, Nat.mul_assoc, ← hpow]
  · rw [hpow]
    exact Nat.mul_lt_mul_of_pos_right h.fits (Nat.two_pow_pos _)

/-- What was written with zeros behind it and is read back has nothing left but these zeros. -/
theorem Cut.read_back {digits : List Nat} (h : Cut inWidth outWidth read written staging)
    (hdigits : ∀ digit ∈ digits, digit < 2 ^ outWidth) (hlength : digits.length = written.length)
    (hvalue : value (2 ^ inWidth) read = value (2 ^ outWidth) digits * 2 ^ staging.count) :
    written = digits ∧ staging.bits = 0 := by
  have hsame := h.values.symm.trans hvalue
  have hbits : staging.bits = 0 := by
    have hmod := congrArg (· % 2 ^ staging.count) hsame
    simpa [Nat.mod_eq_of_lt h.fits] using hmod
  rw [hbits, Nat.add_zero] at hsame
  have hvalues := Nat.eq_of_mul_eq_mul_right (Nat.two_pow_pos _) hsame
  exact ⟨value_inj h.digits hdigits hlength.symm hvalues, hbits⟩

end Cuts

end Paranoid.BitStaging
