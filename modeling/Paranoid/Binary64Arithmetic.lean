import Paranoid.Binary64
import Paranoid.RelativeError

namespace Paranoid.Binary64

open RelativeError

section Operations

/-- An exact result, rounded. Where it is zero, the operation says with which sign. -/
def round (negativeZero : Bool) (q : ℚ) : Float64 :=
  let negative := if q = 0 then negativeZero else q < 0
  match nearest |q| with
  | some x => .finite negative x
  | none => .infinite negative

def Magnitude.signed (x : Magnitude) (negative : Bool) : ℚ := if negative then -x.value else x.value

namespace Float64

def ofInt (n : Int) : Float64 := round false n

def neg : Float64 → Float64
  | .nan => .nan
  | .infinite s => .infinite !s
  | .finite s x => .finite (!s) x

def add : Float64 → Float64 → Float64
  | .nan, _ | _, .nan => .nan
  | .infinite s, .infinite t => if s = t then .infinite s else .nan
  | .infinite s, .finite _ _ => .infinite s
  | .finite _ _, .infinite t => .infinite t
  | .finite s x, .finite t y => round (s && t) (x.signed s + y.signed t)

def sub (x y : Float64) : Float64 := x.add y.neg

def mul : Float64 → Float64 → Float64
  | .nan, _ | _, .nan => .nan
  | .infinite s, .infinite t => .infinite (s ^^ t)
  | .infinite s, .finite t y => if y.significand = 0 then .nan else .infinite (s ^^ t)
  | .finite s x, .infinite t => if x.significand = 0 then .nan else .infinite (s ^^ t)
  | .finite s x, .finite t y => round (s ^^ t) (x.signed s * y.signed t)

def div : Float64 → Float64 → Float64
  | .nan, _ | _, .nan => .nan
  | .infinite _, .infinite _ => .nan
  | .infinite s, .finite t _ => .infinite (s ^^ t)
  | .finite s _, .infinite t => .finite (s ^^ t) .zero
  | .finite s x, .finite t y =>
      if y.significand = 0 then if x.significand = 0 then .nan else .infinite (s ^^ t)
      else round (s ^^ t) (x.signed s / y.signed t)

/-- Neither `nan` is comparable, and the two zeros are equal. -/
def le : Float64 → Float64 → Bool
  | .nan, _ | _, .nan => false
  | .infinite true, _ | _, .infinite false => true
  | .infinite false, _ | _, .infinite true => false
  | .finite s x, .finite t y => x.signed s ≤ y.signed t

/-- Of a `nan` and a number, the number. -/
def min : Float64 → Float64 → Float64
  | .nan, y => y
  | x, .nan => x
  | x, y => if x.le y then x else y

def isFinite : Float64 → Bool
  | .finite _ _ => true
  | _ => false

instance : Add Float64 := ⟨add⟩

instance : Sub Float64 := ⟨sub⟩

instance : Mul Float64 := ⟨mul⟩

instance : Div Float64 := ⟨div⟩

instance : Min Float64 := ⟨min⟩

instance : LE Float64 := ⟨fun x y => x.le y = true⟩

instance : DecidableLE Float64 := fun x y => inferInstanceAs (Decidable (x.le y = true))

end Float64

end Operations

section Rounding

variable {q : ℚ}

theorem roundEven_near (hq : 0 ≤ q) : |(roundEven q : ℚ) - q| ≤ 1 / 2 := by
  have hlow := Nat.floor_le hq
  have hhigh := Nat.lt_floor_add_one q
  rw [abs_le, roundEven]
  split_ifs with hbelow habove
  · constructor <;> linarith
  · push_cast
    constructor <;> linarith
  · rcases Nat.mod_two_eq_zero_or_one ⌊q⌋₊ with hmod | hmod <;> rw [hmod]
    · push_cast
      constructor <;> linarith
    · push_cast
      constructor <;> linarith

theorem ofParts_eq (significand shift : Nat) (hlt : significand < 2 ^ 53) (hnormal : shift = 0 ∨ 2 ^ 52 ≤ significand) :
    (∃ x, Magnitude.ofParts significand shift = some x ∧ x.units = significand * 2 ^ shift) ∨
      Magnitude.ofParts significand shift = none ∧ 2045 < shift := by
  by_cases hshift : shift ≤ 2045
  · exact .inl ⟨⟨significand, shift, hlt, hshift, hnormal⟩, dif_pos ⟨hlt, hshift, hnormal⟩, rfl⟩
  · exact .inr ⟨dif_neg fun h => hshift h.2.1, by omega⟩

/-- Where a number lies among the powers of two, in units of the least positive magnitude. -/
theorem shift_bounds (hq : 0 ≤ q) :
    q * 2 ^ 1074 < 2 ^ (Nat.log2 ⌊q * 2 ^ 1074⌋₊ - 52 + 53) ∧
      (Nat.log2 ⌊q * 2 ^ 1074⌋₊ - 52 = 0 ∨
        2 ^ (Nat.log2 ⌊q * 2 ^ 1074⌋₊ - 52 + 52) ≤ q * 2 ^ 1074) := by
  have hunits : 0 ≤ q * 2 ^ 1074 := by positivity
  have hfloor := Nat.floor_le hunits
  generalize hn : ⌊q * 2 ^ 1074⌋₊ = n at hfloor ⊢
  constructor
  · have hlt : n + 1 ≤ 2 ^ (n.log2 - 52 + 53) :=
      le_trans Nat.lt_log2_self (Nat.pow_le_pow_right (by decide) (by omega))
    calc q * 2 ^ 1074 < n + 1 := hn ▸ Nat.lt_floor_add_one _
      _ ≤ 2 ^ (n.log2 - 52 + 53) := by exact_mod_cast hlt
  · rcases Nat.eq_zero_or_pos (n.log2 - 52) with hzero | hpos
    · exact .inl hzero
    · have hne : n ≠ 0 := by
        rintro rfl
        exact absurd hpos (by decide)
      right
      rw [Nat.sub_add_cancel (by omega)]
      exact le_trans (by exact_mod_cast Nat.log2_self_le hne) hfloor

/-- Half a unit in the last place of a normal number is a small share of it; below these the
unit is the least magnitude. -/
theorem half_unit_le {shift : ℕ} (hlow : shift = 0 ∨ 2 ^ (shift + 52) ≤ q * 2 ^ 1074) :
    1 / 2 * (2 ^ shift / 2 ^ 1074) ≤ max (q / 2 ^ 53) (1 / 2 ^ 1075) := by
  rcases hlow with rfl | hlow
  · refine le_max_of_le_right (le_of_eq ?_)
    rw [pow_zero, div_mul_div_comm, one_mul, ← pow_succ']
  · refine le_max_of_le_left ?_
    rw [pow_add] at hlow
    rw [le_div_iff₀ (by positivity)]
    have hdouble : ∀ a b : ℚ, 1 / 2 * (a / b) * 2 ^ 53 = a * 2 ^ 52 / b := fun a b => by ring
    calc (1 / 2 * (2 ^ shift / 2 ^ 1074) * 2 ^ 53 : ℚ) = 2 ^ shift * 2 ^ 52 / 2 ^ 1074 := hdouble _ _
      _ ≤ q * 2 ^ 1074 / 2 ^ 1074 := div_le_div_of_nonneg_right hlow (by positivity)
      _ = q := mul_div_cancel_right₀ q (by positivity)

theorem large_of_shift {shift : ℕ} (hlow : shift = 0 ∨ 2 ^ (shift + 52) ≤ q * 2 ^ 1074)
    (hshift : 2045 ≤ shift) : 2 ^ 1023 ≤ q := by
  rcases hlow with rfl | hlow
  · exact absurd hshift (by decide)
  · have hpower : (2 : ℚ) ^ (1023 + 1074) ≤ 2 ^ (shift + 52) :=
      pow_le_pow_right₀ (by norm_num) (by omega)
    rw [pow_add] at hpower
    exact le_of_mul_le_mul_right (hpower.trans hlow) (by positivity)

/-- The nearest magnitude is off by half a unit in the last place at most. -/
theorem nearest_cases (hq : 0 ≤ q) :
    (∃ x, nearest q = some x ∧ |x.value - q| ≤ max (q / 2 ^ 53) (1 / 2 ^ 1075)) ∨
      nearest q = none ∧ 2 ^ 1023 ≤ q := by
  obtain ⟨hhigh, hlow⟩ := shift_bounds hq
  rw [nearest]
  generalize Nat.log2 ⌊q * 2 ^ 1074⌋₊ - 52 = shift at hhigh hlow ⊢
  have hpow : (0 : ℚ) < 2 ^ shift := by positivity
  have hx : 0 ≤ q * 2 ^ 1074 / 2 ^ shift := by positivity
  obtain ⟨hbelow, habove⟩ := abs_le.1 (roundEven_near hx)
  have hxlt : q * 2 ^ 1074 / 2 ^ shift < 2 ^ 53 := by
    rw [div_lt_iff₀ hpow, ← pow_add, add_comm]
    exact hhigh
  have hxge : shift = 0 ∨ (2 : ℚ) ^ 52 ≤ q * 2 ^ 1074 / 2 ^ shift := by
    refine hlow.imp_right fun hlow => ?_
    rwa [le_div_iff₀ hpow, ← pow_add, add_comm]
  have hscale : q * 2 ^ 1074 / 2 ^ shift * (2 ^ shift / 2 ^ 1074) = q := by field_simp
  generalize q * 2 ^ 1074 / 2 ^ shift = scaled at hbelow habove hxlt hxge hscale ⊢
  generalize roundEven scaled = significand at hbelow habove ⊢
  have hle : significand ≤ 2 ^ 53 := by
    have hlt : (significand : ℚ) < ((2 ^ 53 + 1 : Nat) : ℚ) := by
      push_cast
      linarith
    exact Nat.lt_succ_iff.1 (by exact_mod_cast hlt)
  have hnormal : shift = 0 ∨ 2 ^ 52 ≤ significand := by
    refine hxge.imp_right fun hxge => ?_
    have hlt : ((2 ^ 52 : Nat) : ℚ) < ((significand + 1 : Nat) : ℚ) := by
      push_cast
      linarith
    exact Nat.lt_succ_iff.1 (by exact_mod_cast hlt)
  have herror : ∀ x : Magnitude, x.units = significand * 2 ^ shift →
      |x.value - q| ≤ max (q / 2 ^ 53) (1 / 2 ^ 1075) := by
    intro x hunits
    have hscaled : x.value - q = (significand - scaled) * (2 ^ shift / 2 ^ 1074) := by
      rw [sub_mul, hscale, Magnitude.value, hunits, Nat.cast_mul, Nat.cast_pow, Nat.cast_ofNat, mul_div_assoc]
    have hhalf : |x.value - q| ≤ 1 / 2 * (2 ^ shift / 2 ^ 1074) := by
      rw [hscaled, abs_mul, abs_of_nonneg (a := (2 ^ shift / 2 ^ 1074 : ℚ)) (by positivity)]
      exact mul_le_mul_of_nonneg_right (abs_le.2 ⟨hbelow, habove⟩) (by positivity)
    exact hhalf.trans (half_unit_le hlow)
  split_ifs with hfits
  · rcases ofParts_eq significand shift hfits hnormal with ⟨x, hparts, hunits⟩ | ⟨hparts, hshift⟩
    · exact .inl ⟨x, hparts, herror x hunits⟩
    · exact .inr ⟨hparts, large_of_shift hlow (by omega)⟩
  · obtain rfl : significand = 2 ^ 53 := by omega
    rcases ofParts_eq (2 ^ 52) (shift + 1) (by decide) (.inr le_rfl) with ⟨x, hparts, hunits⟩ | ⟨hparts, hshift⟩
    · exact .inl ⟨x, hparts, herror x (by rw [hunits, pow_succ]; ring)⟩
    · exact .inr ⟨hparts, large_of_shift hlow (by omega)⟩

end Rounding

section Exactness

theorem exists_value {n : Nat} (hn : n < 2 ^ 53) : ∃ x : Magnitude, x.value = n := by
  rcases Nat.eq_zero_or_pos n with rfl | hpos
  · exact ⟨.zero, by simp [Magnitude.value, Magnitude.units, Magnitude.zero]⟩
  have hlog : n.log2 < 53 := (Nat.log2_lt hpos.ne').2 hn
  have hlow : 2 ^ 52 ≤ n * 2 ^ (52 - n.log2) := by
    calc 2 ^ 52 = 2 ^ n.log2 * 2 ^ (52 - n.log2) := by rw [← pow_add, Nat.add_sub_cancel' (by omega)]
      _ ≤ n * 2 ^ (52 - n.log2) := Nat.mul_le_mul_right _ (Nat.log2_self_le hpos.ne')
  have hhigh : n * 2 ^ (52 - n.log2) < 2 ^ 53 := by
    calc n * 2 ^ (52 - n.log2) < 2 ^ (n.log2 + 1) * 2 ^ (52 - n.log2) :=
          Nat.mul_lt_mul_of_pos_right Nat.lt_log2_self (Nat.two_pow_pos _)
      _ = 2 ^ 53 := by rw [← pow_add, show n.log2 + 1 + (52 - n.log2) = 53 by omega]
  refine ⟨⟨n * 2 ^ (52 - n.log2), 1022 + n.log2, hhigh, by omega, .inr hlow⟩, ?_⟩
  have hunits : n * 2 ^ (52 - n.log2) * 2 ^ (1022 + n.log2) = n * 2 ^ 1074 := by
    rw [mul_assoc, ← pow_add, show 52 - n.log2 + (1022 + n.log2) = 1074 by omega]
  rw [Magnitude.value, Magnitude.units, hunits, Nat.cast_mul, Nat.cast_pow, Nat.cast_ofNat]
  exact mul_div_cancel_right₀ _ (by positivity)

theorem round_of_nearest {q : ℚ} {x : Magnitude} (hq : 0 ≤ q) (h : nearest q = some x) :
    round false q = .finite false x := by
  have hsign : (if q = 0 then false else decide (q < 0)) = false := by simp [hq.not_gt]
  simp only [round, abs_of_nonneg hq, h, hsign]

/-- Natural numbers below `2 ^ 53` are not rounded. -/
theorem ofInt_exact {n : Nat} (hn : n < 2 ^ 53) :
    ∃ x, Float64.ofInt n = .finite false x ∧ x.value = n := by
  obtain ⟨x, hx⟩ := exists_value hn
  have hcast : ((n : Int) : ℚ) = x.value := by rw [hx, Int.cast_natCast]
  refine ⟨x, ?_, hx⟩
  rw [Float64.ofInt, hcast]
  exact round_of_nearest (hx ▸ Nat.cast_nonneg n) (nearest_value x)

theorem value_nonneg (x : Magnitude) : 0 ≤ x.value := by
  rw [Magnitude.value]
  positivity

theorem value_eq_zero {x : Magnitude} (h : x.significand = 0) : x.value = 0 := by
  rw [Magnitude.value, Magnitude.units, h, Nat.zero_mul, Nat.cast_zero, zero_div]

end Exactness

section Approximation

/-- The share that a rounding is off by at most. -/
def unitRoundoff : ℚ := 1 / 2 ^ 53

theorem unitRoundoff_le_one : unitRoundoff ≤ 1 := by
  rw [unitRoundoff]
  norm_num

theorem unitRoundoff_nonneg : 0 ≤ unitRoundoff := by
  rw [unitRoundoff]
  positivity

/-- Far from where numbers are out of range, or too small to be exact to a share. -/
def Sized (q : ℚ) : Prop := q = 0 ∨ 1 / 2 ^ 200 ≤ q ∧ q ≤ 2 ^ 200

/-- The number is what `q` comes to with `k` roundings. -/
def Approx (k : ℕ) (x : Float64) (q : ℚ) : Prop :=
  0 ≤ q ∧ ∃ m : Magnitude, x = .finite false m ∧ Near unitRoundoff k m.value q

variable {j k : ℕ} {x y : Float64} {p q r : ℚ}

/-- In the normal range the nearest magnitude is off by a share. -/
theorem nearest_of_normal (hlow : 1 / 2 ^ 1022 ≤ r) (hhigh : r < 2 ^ 1023) :
    ∃ m, nearest r = some m ∧ |m.value - r| ≤ r * unitRoundoff := by
  have hr : 0 ≤ r := le_trans (by positivity) hlow
  rcases nearest_cases hr with ⟨m, hnearest, herror⟩ | ⟨-, hlarge⟩
  · refine ⟨m, hnearest, herror.trans (max_le ?_ ?_)⟩
    · rw [unitRoundoff, div_eq_mul_one_div]
    · calc (1 / 2 ^ 1075 : ℚ) = 1 / 2 ^ 1022 * (1 / 2 ^ 53) := by
            rw [div_mul_div_comm, one_mul, ← pow_add]
        _ ≤ r * (1 / 2 ^ 53) := mul_le_mul_of_nonneg_right hlow (by positivity)
  · exact absurd hlarge hhigh.not_ge

theorem sized_ratio {a b : ℕ} (ha : a ≤ 2 ^ 200) (hb : 0 < b) (hb' : b ≤ 2 ^ 200) : Sized (a / b) := by
  have hpos : (1 : ℚ) ≤ b := by exact_mod_cast hb
  rcases Nat.eq_zero_or_pos a with rfl | hone
  · exact .inl (by rw [Nat.cast_zero, zero_div])
  · have hone : (1 : ℚ) ≤ a := by exact_mod_cast hone
    have ha : (a : ℚ) ≤ 2 ^ 200 := by exact_mod_cast ha
    have hb : (b : ℚ) ≤ 2 ^ 200 := by exact_mod_cast hb'
    refine .inr ⟨?_, (div_le_self (zero_le_one.trans hone) hpos).trans ha⟩
    exact div_le_div₀ (zero_le_one.trans hone) hone (zero_lt_one.trans_le hpos) hb

theorem half_le_pow (hk : k ≤ 1000) : 1 / 2 ≤ (1 - unitRoundoff) ^ k := by
  refine le_trans ?_ (one_sub_mul_le_pow unitRoundoff_le_one k)
  have hcast : (k : ℚ) ≤ 1000 := by exact_mod_cast hk
  have hshare : (k : ℚ) * unitRoundoff ≤ 1000 * unitRoundoff :=
    mul_le_mul_of_nonneg_right hcast unitRoundoff_nonneg
  have hsmall : 1000 * unitRoundoff ≤ 1 / 2 := by
    rw [unitRoundoff]
    norm_num
  linarith

/-- What is near to a number of moderate size is zero with it, or in the normal range. -/
theorem normal_of_near (h : Near unitRoundoff k r q) (hr : 0 ≤ r) (hq : Sized q) (hk : k ≤ 1000) :
    r = 0 ∨ 1 / 2 ^ 1022 ≤ r ∧ r < 2 ^ 1023 := by
  have hhalf := half_le_pow hk
  have hbelow := h.below
  have habove : r * (1 / 2) ≤ q := (mul_le_mul_of_nonneg_left hhalf hr).trans h.above
  rcases hq with rfl | ⟨hlow, hhigh⟩
  · exact .inl (le_antisymm (by linarith) hr)
  · have hq : 0 ≤ q := le_trans (by positivity) hlow
    have hbelow : q * (1 / 2) ≤ r := (mul_le_mul_of_nonneg_left hhalf hq).trans h.below
    refine .inr ⟨?_, ?_⟩
    · calc (1 / 2 ^ 1022 : ℚ) ≤ 1 / 2 ^ (200 + 1) :=
            one_div_le_one_div_of_le (by positivity) (pow_le_pow_right₀ one_le_two (by decide))
        _ = 1 / 2 ^ 200 * (1 / 2) := by rw [div_mul_div_comm, one_mul, ← pow_succ]
        _ ≤ q * (1 / 2) := mul_le_mul_of_nonneg_right hlow (by norm_num)
        _ ≤ r := hbelow
    · calc r ≤ 2 ^ 200 * 2 := by linarith
        _ = 2 ^ (200 + 1) := (pow_succ _ _).symm
        _ < 2 ^ 1023 := pow_lt_pow_right₀ one_lt_two (by decide)

/-- One rounding more. -/
theorem approx_round (h : Near unitRoundoff k r q) (hr : 0 ≤ r) (hq : 0 ≤ q) (hsized : Sized q) (hk : k ≤ 1000) :
    Approx (k + 1) (round false r) q := by
  refine ⟨hq, ?_⟩
  rcases normal_of_near h hr hsized hk with rfl | ⟨hlow, hhigh⟩
  · obtain ⟨m, hm⟩ := exists_value (n := 0) (by decide)
    rw [Nat.cast_zero] at hm
    refine ⟨m, round_of_nearest le_rfl (hm ▸ nearest_value m), ?_⟩
    rw [hm]
    exact h.mono unitRoundoff_le_one unitRoundoff_nonneg le_rfl hq (Nat.le_succ k)
  · obtain ⟨m, hnearest, herror⟩ := nearest_of_normal hlow hhigh
    exact ⟨m, round_of_nearest hr hnearest,
      (near_of_abs unitRoundoff_le_one hr herror).trans unitRoundoff_le_one h⟩

theorem approx_exact {n : Nat} (hn : n < 2 ^ 53) : Approx 0 (Float64.ofInt n) n := by
  obtain ⟨m, hm, hvalue⟩ := ofInt_exact hn
  exact ⟨Nat.cast_nonneg n, m, hm, hvalue ▸ near_exact _ _⟩

theorem approx_ofInt {n : Nat} (hn : n < 2 ^ 200) : Approx 1 (Float64.ofInt n) n := by
  have hsized : Sized (n : ℚ) := by
    rcases Nat.eq_zero_or_pos n with rfl | hpos
    · exact .inl Nat.cast_zero
    · have hone : (1 : ℚ) ≤ n := by exact_mod_cast hpos
      have hhigh : (n : ℚ) ≤ 2 ^ 200 := by exact_mod_cast hn.le
      exact .inr ⟨le_trans (by norm_num) hone, hhigh⟩
  have hround := approx_round (near_exact unitRoundoff (n : ℚ))
    (Nat.cast_nonneg n) (Nat.cast_nonneg n) hsized (by decide)
  rwa [Float64.ofInt, Int.cast_natCast]

theorem Approx.mono (h : Approx j x q) (hjk : j ≤ k) : Approx k x q := by
  obtain ⟨hq, m, rfl, hnear⟩ := h
  exact ⟨hq, m, rfl, hnear.mono unitRoundoff_le_one unitRoundoff_nonneg (value_nonneg m) hq hjk⟩

theorem Approx.add (hx : Approx k x p) (hy : Approx k y q) (hsized : Sized (p + q)) (hk : k ≤ 1000) :
    Approx (k + 1) (x + y) (p + q) := by
  obtain ⟨hp, m, rfl, hm⟩ := hx
  obtain ⟨hq, n, rfl, hn⟩ := hy
  exact approx_round (hm.add hn) (add_nonneg (value_nonneg m) (value_nonneg n)) (add_nonneg hp hq) hsized hk

theorem Approx.mul (hx : Approx j x p) (hy : Approx k y q) (hsized : Sized (p * q)) (hk : j + k ≤ 1000) :
    Approx (j + k + 1) (x * y) (p * q) := by
  obtain ⟨hp, m, rfl, hm⟩ := hx
  obtain ⟨hq, n, rfl, hn⟩ := hy
  exact approx_round (hm.mul unitRoundoff_le_one hn (value_nonneg m) hp (value_nonneg n) hq)
    (mul_nonneg (value_nonneg m) (value_nonneg n)) (mul_nonneg hp hq) hsized hk

theorem Approx.div (hx : Approx j x p) (hy : Approx k y q) (hq : 0 < q) (hsized : Sized (p / q)) (hk : j + k ≤ 1000) :
    Approx (j + k + 1) (x / y) (p / q) := by
  obtain ⟨hp, m, rfl, hm⟩ := hx
  obtain ⟨-, n, rfl, hn⟩ := hy
  have hpow := half_le_pow (k := k) (by omega)
  have hpos : 0 < n.value := lt_of_lt_of_le (mul_pos hq (by linarith)) hn.below
  have hsignificand : n.significand ≠ 0 := fun hzero => hpos.ne' (value_eq_zero hzero)
  have hdiv : (.finite false m / .finite false n : Float64) = round false (m.value / n.value) :=
    if_neg hsignificand
  rw [hdiv]
  exact approx_round (hm.div unitRoundoff_le_one hn (value_nonneg m) hp hpos hq)
    (div_nonneg (value_nonneg m) hpos.le) (div_nonneg hp hq.le) hsized hk

end Approximation

section Clamp

/-- A number cut off to the range from zero to `capacity`, in which a `nan` counts as the capacity. -/
def clamp (capacity : ℚ) : Float64 → ℚ
  | .nan | .infinite false => capacity
  | .infinite true => 0
  | .finite s x => max (min (x.signed s) capacity) 0

variable {capacity q : ℚ} {x y : Float64}

theorem clamp_le (hcapacity : 0 ≤ capacity) (x : Float64) : clamp capacity x ≤ capacity := by
  match x with
  | .nan | .infinite false => exact le_rfl
  | .infinite true => exact hcapacity
  | .finite s x => exact max_le (min_le_right _ _) hcapacity

theorem clamp_nonneg (hcapacity : 0 ≤ capacity) (x : Float64) : 0 ≤ clamp capacity x := by
  match x with
  | .nan | .infinite false => exact hcapacity
  | .infinite true => exact le_rfl
  | .finite s x => exact le_max_right _ _

theorem clamp_mono (hcapacity : 0 ≤ capacity) (h : x ≤ y) : clamp capacity x ≤ clamp capacity y := by
  have h : x.le y = true := h
  match x, y with
  | .nan, _ => cases h
  | x, .infinite false => exact clamp_le hcapacity x
  | .infinite true, y => exact clamp_nonneg hcapacity y
  | .finite s x, .finite t y =>
      exact max_le_max (min_le_min (of_decide_eq_true h) le_rfl) le_rfl

theorem le_of_not_le (hx : x ≠ .nan) (hy : y ≠ .nan) (h : ¬x ≤ y) : y ≤ x := by
  have h : ¬x.le y = true := h
  change y.le x = true
  match x, y with
  | .nan, _ => exact absurd rfl hx
  | _, .nan => exact absurd rfl hy
  | .infinite true, .infinite t | .infinite true, .finite t y => exact absurd rfl h
  | .infinite false, .infinite true | .infinite false, .finite t y => rfl
  | .infinite false, .infinite false | .finite s x, .infinite false => exact absurd rfl h
  | .finite s x, .infinite true => rfl
  | .finite s x, .finite t y =>
      exact decide_eq_true (le_of_lt (not_le.1 fun hle => h (decide_eq_true hle)))

theorem min_eq (hx : x ≠ .nan) (hy : y ≠ .nan) : min x y = if x ≤ y then x else y := by
  cases x with
  | nan => exact absurd rfl hx
  | _ =>
      cases y with
      | nan => exact absurd rfl hy
      | _ => rfl

theorem min_le_of_ne_nan (hy : y ≠ .nan) : min x y ≤ y := by
  have hself : y ≤ y := by
    change y.le y = true
    cases y with
    | nan => exact absurd rfl hy
    | infinite s => cases s <;> rfl
    | finite s y => exact decide_eq_true le_rfl
  by_cases hx : x = .nan
  · rw [hx]
    exact hself
  · rw [min_eq hx hy]
    split_ifs with hle
    · exact hle
    · exact hself

theorem clamp_min_le (hcapacity : 0 ≤ capacity) (hy : y ≠ .nan) : clamp capacity (min x y) ≤ clamp capacity x := by
  by_cases hx : x = .nan
  · rw [hx]
    exact clamp_le hcapacity _
  · rw [min_eq hx hy]
    split_ifs with hle
    · exact le_rfl
    · exact clamp_mono hcapacity (le_of_not_le hx hy hle)

theorem round_zero (s : Bool) : ∃ m : Magnitude, m.value = 0 ∧ round s 0 = .finite s m := by
  obtain ⟨m, hm⟩ := exists_value (n := 0) (by decide)
  rw [Nat.cast_zero] at hm
  have hnearest : nearest 0 = some m := hm ▸ nearest_value m
  exact ⟨m, hm, by simp only [round, abs_zero, hnearest, if_true]⟩

theorem round_of_neg (hq : q < 0) (s : Bool) : (∃ m, round s q = .finite true m) ∨ round s q = .infinite true := by
  have hsign : (if q = 0 then s else decide (q < 0)) = true := by simp [hq, hq.ne]
  cases hnearest : nearest |q| with
  | none => exact .inr (by simp only [round, hnearest, hsign])
  | some m => exact .inl ⟨m, by simp only [round, hnearest, hsign]⟩

theorem round_of_pos (hq : 0 < q) (s : Bool) : (∃ m, nearest q = some m ∧ round s q = .finite false m) ∨
    nearest q = none ∧ round s q = .infinite false := by
  have hsign : (if q = 0 then s else decide (q < 0)) = false := by simp [hq.not_gt, hq.ne']
  cases hnearest : nearest q with
  | none => exact .inr ⟨rfl, by simp only [round, abs_of_pos hq, hnearest, hsign]⟩
  | some m => exact .inl ⟨m, rfl, by simp only [round, abs_of_pos hq, hnearest, hsign]⟩

theorem clamp_negative (m : Magnitude) : clamp capacity (.finite true m) = 0 :=
  max_eq_right ((min_le_left _ _).trans (neg_nonpos.2 (value_nonneg m)))

theorem clamp_round_of_nonpos (hq : q ≤ 0) (s : Bool) : clamp capacity (round s q) = 0 := by
  rcases hq.eq_or_lt with rfl | hneg
  · obtain ⟨m, hm, hround⟩ := round_zero s
    rw [hround]
    cases s with
    | true => exact clamp_negative m
    | false => exact max_eq_right ((min_le_left _ _).trans hm.le)
  · rcases round_of_neg hneg s with ⟨m, hround⟩ | hround <;> rw [hround]
    · exact clamp_negative m
    · rfl

/-- Rounding adds a share of the capacity at most. -/
theorem clamp_round_le (hone : 1 ≤ capacity) (hcapacity : capacity ≤ 2 ^ 1023) (hq : 0 ≤ q) (s : Bool) :
    clamp capacity (round s q) ≤ q + capacity * unitRoundoff := by
  have hcap : 0 ≤ capacity := zero_le_one.trans hone
  have hshare : 0 ≤ capacity * unitRoundoff := mul_nonneg hcap unitRoundoff_nonneg
  rcases le_total capacity q with hlarge | hsmall
  · linarith [clamp_le hcap (round s q)]
  rcases hq.eq_or_lt with rfl | hpos
  · rw [clamp_round_of_nonpos le_rfl, zero_add]
    exact hshare
  rcases round_of_pos hpos s with ⟨m, hnearest, hround⟩ | ⟨hnearest, hround⟩
  · rcases nearest_cases hq with ⟨found, hfound, herror⟩ | ⟨hnone, -⟩
    · obtain rfl : m = found := Option.some.inj (hnearest.symm.trans hfound)
      have hbound : max (q / 2 ^ 53) (1 / 2 ^ 1075) ≤ capacity * unitRoundoff := by
        refine max_le ?_ ?_
        · rw [unitRoundoff, mul_one_div]
          exact div_le_div_of_nonneg_right hsmall (by positivity)
        · calc (1 / 2 ^ 1075 : ℚ) ≤ 1 / 2 ^ 53 :=
                one_div_le_one_div_of_le (by positivity) (pow_le_pow_right₀ one_le_two (by decide))
            _ ≤ capacity * unitRoundoff := le_mul_of_one_le_left unitRoundoff_nonneg hone
      have hvalue : m.value ≤ q + capacity * unitRoundoff := by
        linarith [(abs_le.1 (herror.trans hbound)).2]
      rw [hround]
      exact max_le ((min_le_left _ _).trans hvalue) (add_nonneg hq hshare)
    · rw [hnearest] at hnone
      cases hnone
  · rcases nearest_cases hq with ⟨found, hfound, -⟩ | ⟨-, hlarge⟩
    · rw [hnearest] at hfound
      cases hfound
    · exact (clamp_le hcap _).trans ((hcapacity.trans hlarge).trans (le_add_of_nonneg_right hshare))

theorem clamp_add_le (hone : 1 ≤ capacity) (hcapacity : capacity ≤ 2 ^ 1023) (x : Float64) (m : Magnitude) :
    clamp capacity (x + .finite false m) ≤ clamp capacity x + m.value + capacity * unitRoundoff := by
  have hcap : 0 ≤ capacity := zero_le_one.trans hone
  have hmore : 0 ≤ m.value + capacity * unitRoundoff :=
    add_nonneg (value_nonneg m) (mul_nonneg hcap unitRoundoff_nonneg)
  rw [add_assoc]
  match x with
  | .nan | .infinite false | .infinite true => exact le_add_of_nonneg_right hmore
  | .finite s x =>
      change clamp capacity (round (s && false) (x.signed s + m.value)) ≤ _
      have hclamp := clamp_nonneg hcap (.finite s x)
      rcases le_total (x.signed s + m.value) 0 with hneg | hpos
      · rw [clamp_round_of_nonpos hneg]
        exact add_nonneg hclamp hmore
      · rcases le_total (x.signed s) capacity with hle | hge
        · have hsum := clamp_round_le hone hcapacity hpos (s && false)
          have hlevel : x.signed s ≤ clamp capacity (.finite s x) :=
            (min_eq_left hle).ge.trans (le_max_left _ _)
          linarith only [hsum, hlevel]
        · have hfull : clamp capacity (.finite s x) = capacity := by
            rw [clamp, min_eq_right hge, max_eq_left hcap]
          rw [hfull]
          exact (clamp_le hcap _).trans (le_add_of_nonneg_right hmore)

/-- What flows in after some roundings raises the level by itself and by a share for each, up to
the capacity. -/
theorem clamp_add_approx {k : ℕ} (hone : 1 ≤ capacity) (hcapacity : capacity ≤ 2 ^ 1023) (hk : k ≤ 1000)
    (hy : Approx k y q) :
    clamp capacity (x + y) ≤
      min (clamp capacity x + q) capacity + (2 * k + 1) * (capacity * unitRoundoff) := by
  obtain ⟨hq, m, rfl, hnear⟩ := hy
  have hcap : 0 ≤ capacity := zero_le_one.trans hone
  have hshares : 0 ≤ (2 * k + 1) * (capacity * unitRoundoff) :=
    mul_nonneg (add_nonneg (mul_nonneg zero_le_two (Nat.cast_nonneg k)) zero_le_one)
      (mul_nonneg hcap unitRoundoff_nonneg)
  have hfull := clamp_le hcap (x + .finite false m)
  rw [← min_add_add_right]
  refine le_min ?_ (hfull.trans (le_add_of_nonneg_right hshares))
  rcases le_total m.value (2 * capacity) with hsmall | hlarge
  · have hsum := clamp_add_le hone hcapacity x m
    have hover := hnear.le_add unitRoundoff_le_one (value_nonneg m)
    have hbound : (k : ℚ) * unitRoundoff * m.value ≤ k * unitRoundoff * (2 * capacity) :=
      mul_le_mul_of_nonneg_left hsmall (mul_nonneg (Nat.cast_nonneg k) unitRoundoff_nonneg)
    linarith
  · have hhalf : m.value * (1 / 2) ≤ q :=
      (mul_le_mul_of_nonneg_left (half_le_pow hk) (value_nonneg m)).trans hnear.above
    have hlevel := clamp_nonneg hcap x
    linarith

theorem clamp_ofInt {n : ℕ} (hn : n < 2 ^ 53) : clamp n (Float64.ofInt n) = n := by
  obtain ⟨m, hm, hvalue⟩ := ofInt_exact hn
  have hpos := value_nonneg m
  rw [hm, clamp, Magnitude.signed, if_neg Bool.false_ne_true, ← hvalue, min_self, max_eq_left hpos]

/-- Between one and the capacity a number is what it is cut off to, and so is one less. -/
theorem clamp_sub_one {n : Nat} (hn : n < 2 ^ 53) (hlow : Float64.ofInt 1 ≤ x) (hhigh : x ≤ Float64.ofInt n) :
    1 ≤ clamp n x ∧ clamp n (x - Float64.ofInt 1) ≤ clamp n x - 1 + n * unitRoundoff := by
  obtain ⟨one, hone, hvalue⟩ := ofInt_exact (n := 1) (by decide)
  change Float64.ofInt 1 = _ at hone
  obtain ⟨top, htop, htopValue⟩ := ofInt_exact hn
  rw [hone] at hlow ⊢
  rw [htop] at hhigh
  match x with
  | .nan | .infinite true => cases hlow
  | .infinite false => cases hhigh
  | .finite s x =>
      have hlow : one.value ≤ x.signed s := of_decide_eq_true hlow
      have hhigh : x.signed s ≤ top.value := of_decide_eq_true hhigh
      rw [hvalue, Nat.cast_one] at hlow
      rw [htopValue] at hhigh
      have hexact : clamp n (.finite s x) = x.signed s := by
        rw [clamp, min_eq_left hhigh, max_eq_left (zero_le_one.trans hlow)]
      rw [hexact]
      refine ⟨hlow, ?_⟩
      change clamp n (round (s && true) (x.signed s + -one.value)) ≤ _
      rw [hvalue, Nat.cast_one, ← sub_eq_add_neg]
      refine clamp_round_le (hlow.trans hhigh) ?_ (sub_nonneg.2 hlow) _
      have hsmall : (n : ℚ) ≤ 2 ^ 53 := by exact_mod_cast hn.le
      exact hsmall.trans (pow_le_pow_right₀ one_le_two (by decide))

end Clamp

end Paranoid.Binary64
