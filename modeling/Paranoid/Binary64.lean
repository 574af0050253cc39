import Mathlib.Algebra.Order.Floor.Semiring
import Mathlib.Data.Nat.Find
import Mathlib.Data.Rat.Floor
import Mathlib.Tactic.FieldSimp
import Mathlib.Tactic.NormNum
import Mathlib.Tactic.Ring

namespace Paranoid.Binary64

/-- A number that is finite and not negative: `significand * 2 ^ (shift - 1074)`, in its only representation. -/
structure Magnitude where
  significand : Nat
  shift : Nat
  significand_lt : significand < 2 ^ 53
  shift_le : shift ≤ 2045
  normalized : shift = 0 ∨ 2 ^ 52 ≤ significand
  deriving DecidableEq

inductive Float64
  | nan
  | infinite (negative : Bool)
  | finite (negative : Bool) (magnitude : Magnitude)
  deriving DecidableEq

theorem log2_mul_two_pow {n : Nat} (hn : n ≠ 0) (k : Nat) : Nat.log2 (n * 2 ^ k) = Nat.log2 n + k := by
  induction k with
  | zero => rw [pow_zero, mul_one, Nat.add_zero]
  | succ k ih =>
      have hne : n * 2 ^ k ≠ 0 := Nat.mul_ne_zero hn (Nat.two_pow_pos k).ne'
      rw [pow_succ, ← mul_assoc, mul_comm, Nat.log2_two_mul hne, ih, Nat.add_assoc]

namespace Magnitude

def zero : Magnitude := ⟨0, 0, by decide, by decide, .inl rfl⟩

/-- How many times the least positive number a magnitude is. -/
def units (x : Magnitude) : Nat := x.significand * 2 ^ x.shift

def value (x : Magnitude) : ℚ := x.units / 2 ^ 1074

def ofParts (significand shift : Nat) : Option Magnitude :=
  if h : significand < 2 ^ 53 ∧ shift ≤ 2045 ∧ (shift = 0 ∨ 2 ^ 52 ≤ significand) then
    some ⟨significand, shift, h.1, h.2.1, h.2.2⟩
  else none

variable (x : Magnitude)

theorem ofParts_self : ofParts x.significand x.shift = some x :=
  dif_pos ⟨x.significand_lt, x.shift_le, x.normalized⟩

theorem value_mul : x.value * 2 ^ 1074 = (x.units : ℚ) := div_mul_cancel₀ _ (by positivity)

theorem shift_eq : Nat.log2 x.units - 52 = x.shift := by
  rcases Nat.eq_zero_or_pos x.significand with hzero | hpos
  · have hshift : x.shift = 0 := by
      rcases x.normalized with h | h
      · exact h
      · rw [hzero] at h
        exact absurd h (by decide)
    rw [units, hzero, Nat.zero_mul, hshift]
    rfl
  have hlog : Nat.log2 x.units = Nat.log2 x.significand + x.shift := by
    rw [units, log2_mul_two_pow (Nat.pos_iff_ne_zero.1 hpos)]
  have hlt : Nat.log2 x.significand < 53 :=
    (Nat.log2_lt (Nat.pos_iff_ne_zero.1 hpos)).2 x.significand_lt
  rcases x.normalized with h | h
  · omega
  · have hge : 52 ≤ Nat.log2 x.significand := (Nat.le_log2 (Nat.pos_iff_ne_zero.1 hpos)).2 h
    omega

end Magnitude

section Rounding

/-- To the nearest natural number, and to the even one of two. -/
def roundEven (q : ℚ) : Nat :=
  let n := ⌊q⌋₊
  if q - n < 1 / 2 then n else if 1 / 2 < q - n then n + 1 else n + n % 2

theorem roundEven_natCast (n : Nat) : roundEven n = n := by
  rw [roundEven, Nat.floor_natCast, sub_self, if_pos (by norm_num)]

/-- The magnitude nearest to a rational number, unless that is out of range. -/
def nearest (q : ℚ) : Option Magnitude :=
  let shift := Nat.log2 ⌊q * 2 ^ 1074⌋₊ - 52
  let significand := roundEven (q * 2 ^ 1074 / 2 ^ shift)
  if significand < 2 ^ 53 then Magnitude.ofParts significand shift else Magnitude.ofParts (2 ^ 52) (shift + 1)

/-- A number that is a magnitude is its own nearest one. -/
theorem nearest_value (x : Magnitude) : nearest x.value = some x := by
  have hsignificand : (x.units : ℚ) / 2 ^ x.shift = (x.significand : ℚ) := by
    rw [Magnitude.units, Nat.cast_mul, Nat.cast_pow, Nat.cast_ofNat]
    exact mul_div_cancel_right₀ _ (by positivity)
  rw [nearest, x.value_mul, Nat.floor_natCast, x.shift_eq, hsignificand, roundEven_natCast,
    if_pos x.significand_lt, x.ofParts_self]

end Rounding

section Shortest

variable (x : Magnitude)

/-- Whether a decimal stands for the number: it is the nearest to it. -/
def StandsFor (digits : Nat) (exponent : Int) : Prop := nearest (digits * 10 ^ exponent) = some x

instance (digits : Nat) (exponent : Int) : Decidable (StandsFor x digits exponent) :=
  inferInstanceAs (Decidable (_ = _))

def digitsBelow (exponent : Int) : Nat := ⌊x.value / 10 ^ exponent⌋₊

/-- One of the two decimals around the number, with this last place, stands for it. -/
def Expressible (exponent : Int) : Prop :=
  StandsFor x (digitsBelow x exponent) exponent ∨ StandsFor x (digitsBelow x exponent + 1) exponent

instance (exponent : Int) : Decidable (Expressible x exponent) := inferInstanceAs (Decidable (_ ∨ _))

/-- Every number has a decimal expansion that ends. -/
theorem expressible_exact : Expressible x (309 - (1383 : Nat)) := by
  have hexact : x.value / 10 ^ (309 - (1383 : Nat) : Int) = ((x.units * 5 ^ 1074 : Nat) : ℚ) := by
    have hexponent : (309 - (1383 : Nat) : Int) = -(1074 : Nat) := by norm_num
    have hten : (10 : ℚ) ^ 1074 = 2 ^ 1074 * 5 ^ 1074 := by rw [← mul_pow]; norm_num
    rw [hexponent, zpow_neg, zpow_natCast, div_inv_eq_mul,
      hten, ← mul_assoc, x.value_mul, Nat.cast_mul, Nat.cast_pow,
      Nat.cast_ofNat]
  have hback : ((x.units * 5 ^ 1074 : Nat) : ℚ) * 10 ^ (309 - (1383 : Nat) : Int) = x.value := by
    rw [← hexact, div_mul_cancel₀ _ (zpow_ne_zero _ (by norm_num))]
  left
  rw [StandsFor, digitsBelow, hexact, Nat.floor_natCast, hback, nearest_value]

theorem exists_expressible : ∃ places : Nat, Expressible x (309 - places) := ⟨_, expressible_exact x⟩

/-- The last place of the shortest decimal that stands for the number. -/
def shortestExponent : Int := 309 - Nat.find (exists_expressible x)

/-- Its digits: of two decimals that are as short, those of the closer one. -/
def shortestDigits : Nat :=
  let exponent := shortestExponent x
  let digits := digitsBelow x exponent
  if StandsFor x digits exponent ∧ (StandsFor x (digits + 1) exponent → x.value / 10 ^ exponent - digits < 1 / 2) then
    digits
  else digits + 1

theorem standsFor_shortest : StandsFor x (shortestDigits x) (shortestExponent x) := by
  have hfind : Expressible x (shortestExponent x) := Nat.find_spec (exists_expressible x)
  unfold shortestDigits
  dsimp only
  split_ifs with hbelow
  · exact hbelow.1
  · rcases hfind with hstands | hstands
    · by_contra habove
      exact hbelow ⟨hstands, fun h => absurd h habove⟩
    · exact hstands

end Shortest

end Paranoid.Binary64
