import Mathlib.Algebra.Order.Field.Basic
import Mathlib.Algebra.Order.Ring.Pow
import Mathlib.Tactic.Linarith
import Mathlib.Tactic.Positivity
import Mathlib.Tactic.Ring

namespace Paranoid.RelativeError

variable {K : Type*} [Field K] [LinearOrder K] [IsStrictOrderedRing K]

/-- `x` is what `q` comes to in a computation with `k` roundings, each off by the share `u` of
the number at most. -/
structure Near (u : K) (k : ℕ) (x q : K) : Prop where
  below : q * (1 - u) ^ k ≤ x
  above : x * (1 - u) ^ k ≤ q

variable {u x y p q : K} {j k : ℕ}

omit [IsStrictOrderedRing K] in
theorem near_exact (u q : K) : Near u 0 q q := ⟨by simp, by simp⟩

variable (hu : u ≤ 1) (hu' : 0 ≤ u)

include hu in
/-- A number is off by the share `u` in both directions. -/
theorem near_of_abs (hq : 0 ≤ q) (h : |x - q| ≤ q * u) : Near u 1 x q := by
  obtain ⟨hlow, hhigh⟩ := abs_le.1 h
  have hle : x ≤ q * (1 + u) := by linarith
  refine ⟨by rw [pow_one]; linarith, ?_⟩
  calc x * (1 - u) ^ 1 = x * (1 - u) := by rw [pow_one]
    _ ≤ q * (1 + u) * (1 - u) := mul_le_mul_of_nonneg_right hle (sub_nonneg.2 hu)
    _ = q - q * u ^ 2 := by ring
    _ ≤ q := sub_le_self _ (by positivity)

include hu hu' in
theorem Near.mono (h : Near u j x q) (hx : 0 ≤ x) (hq : 0 ≤ q) (hjk : j ≤ k) : Near u k x q := by
  have hpow : (1 - u) ^ k ≤ (1 - u) ^ j :=
    pow_le_pow_of_le_one (sub_nonneg.2 hu) (sub_le_self 1 hu') hjk
  exact ⟨(mul_le_mul_of_nonneg_left hpow hq).trans h.below,
    (mul_le_mul_of_nonneg_left hpow hx).trans h.above⟩

theorem Near.add (hx : Near u k x p) (hy : Near u k y q) : Near u k (x + y) (p + q) :=
  ⟨by rw [add_mul]; exact add_le_add hx.below hy.below, by rw [add_mul]; exact add_le_add hx.above hy.above⟩

include hu in
/-- A number near to one that is near. -/
theorem Near.trans (h : Near u j x y) (h' : Near u k y q) : Near u (k + j) x q := by
  have hj : 0 ≤ (1 - u) ^ j := pow_nonneg (sub_nonneg.2 hu) j
  have hk : 0 ≤ (1 - u) ^ k := pow_nonneg (sub_nonneg.2 hu) k
  constructor
  · calc q * (1 - u) ^ (k + j) = q * (1 - u) ^ k * (1 - u) ^ j := by ring
      _ ≤ y * (1 - u) ^ j := mul_le_mul_of_nonneg_right h'.below hj
      _ ≤ x := h.below
  · calc x * (1 - u) ^ (k + j) = x * (1 - u) ^ j * (1 - u) ^ k := by ring
      _ ≤ y * (1 - u) ^ k := mul_le_mul_of_nonneg_right h.above hk
      _ ≤ q := h'.above

include hu in
theorem Near.mul (hx : Near u j x p) (hy : Near u k y q) (hx' : 0 ≤ x) (hp : 0 ≤ p) (hy' : 0 ≤ y) (hq : 0 ≤ q) :
    Near u (j + k) (x * y) (p * q) := by
  have hj : 0 ≤ (1 - u) ^ j := pow_nonneg (sub_nonneg.2 hu) j
  have hk : 0 ≤ (1 - u) ^ k := pow_nonneg (sub_nonneg.2 hu) k
  constructor
  · calc p * q * (1 - u) ^ (j + k) = p * (1 - u) ^ j * (q * (1 - u) ^ k) := by ring
      _ ≤ x * y := mul_le_mul hx.below hy.below (mul_nonneg hq hk) hx'
  · calc x * y * (1 - u) ^ (j + k) = x * (1 - u) ^ j * (y * (1 - u) ^ k) := by ring
      _ ≤ p * q := mul_le_mul hx.above hy.above (mul_nonneg hy' hk) hp

include hu in
theorem Near.div (hx : Near u j x p) (hy : Near u k y q) (hx' : 0 ≤ x) (hp : 0 ≤ p) (hy' : 0 < y) (hq : 0 < q) :
    Near u (j + k) (x / y) (p / q) := by
  have hj : 0 ≤ (1 - u) ^ j := pow_nonneg (sub_nonneg.2 hu) j
  have hk : 0 ≤ (1 - u) ^ k := pow_nonneg (sub_nonneg.2 hu) k
  constructor
  · rw [le_div_iff₀ hy']
    calc p / q * (1 - u) ^ (j + k) * y = p * (1 - u) ^ j * (y * (1 - u) ^ k) / q := by ring
      _ ≤ x * q / q := div_le_div_of_nonneg_right (mul_le_mul hx.below hy.above (mul_nonneg hy'.le hk) hx') hq.le
      _ = x := mul_div_cancel_right₀ x hq.ne'
  · rw [le_div_iff₀ hq]
    calc x / y * (1 - u) ^ (j + k) * q = x * (1 - u) ^ j * (q * (1 - u) ^ k) / y := by ring
      _ ≤ p * y / y := div_le_div_of_nonneg_right (mul_le_mul hx.above hy.below (mul_nonneg hq.le hk) hp) hy'.le
      _ = p := mul_div_cancel_right₀ p hy'.ne'

include hu in
/-- So many roundings take off at most their sum. -/
theorem one_sub_mul_le_pow (k : ℕ) : 1 - k * u ≤ (1 - u) ^ k := by
  have h := one_add_mul_le_pow (a := -u) (by linarith) k
  rwa [mul_neg, ← sub_eq_add_neg, ← sub_eq_add_neg] at h

include hu in
/-- What is near lies above by a share of its own. -/
theorem Near.le_add (h : Near u k x q) (hx : 0 ≤ x) : x ≤ q + k * u * x := by
  have hpow := mul_le_mul_of_nonneg_left (one_sub_mul_le_pow hu k) hx
  have habove := h.above
  linarith

end Paranoid.RelativeError
