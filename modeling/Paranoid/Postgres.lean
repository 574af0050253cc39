import Mathlib.Algebra.Ring.Int.Defs
import Mathlib.Algebra.Ring.Nat
import Mathlib.Data.Int.Order.Basic
import Mathlib.Data.List.Forall2
import Mathlib.Order.Lattice

namespace Paranoid.Postgres

/-- The conditions under which a statement fails. Its transaction then rolls back,
so a failed statement leaves every table as it was. -/
inductive SqlError
  | integerOutOfRange
  | bigintOutOfRange
  | intervalOutOfRange
  | timestampOutOfRange
  | checkViolation
  | uniqueViolation
  deriving DecidableEq, Repr

variable {ε α β : Type}

@[simp] theorem pure_eq_ok (a : α) : (pure a : Except ε α) = .ok a := rfl

@[simp] theorem ok_bind (a : α) (f : α → Except ε β) : (Except.ok a >>= f) = f a := rfl

@[simp] theorem error_bind (e : ε) (f : α → Except ε β) : (Except.error e >>= f) = .error e := rfl

theorem bind_eq_ok {x : Except ε α} {f : α → Except ε β} {b : β} :
    (x >>= f) = .ok b ↔ ∃ a, x = .ok a ∧ f a = .ok b := by
  cases x with
  | error e => simp
  | ok a => simp

theorem bind_eq_error {x : Except ε α} {f : α → Except ε β} {e : ε} :
    (x >>= f) = .error e ↔ x = .error e ∨ ∃ a, x = .ok a ∧ f a = .error e := by
  cases x <;> simp

theorem mapError_eq_ok {δ : Type} {x : Except ε α} {f : ε → δ} {a : α} :
    x.mapError f = .ok a ↔ x = .ok a := by
  cases x <;> simp [Except.mapError]

theorem mapError_eq_error {δ : Type} {x : Except ε α} {f : ε → δ} {e : δ} :
    x.mapError f = .error e ↔ ∃ source, x = .error source ∧ e = f source := by
  cases x <;> simp [Except.mapError, eq_comm]

/-- A check that throws, and what follows it. -/
theorem guard_eq_ok {c : Prop} [Decidable c] {error : ε} {rest : Unit → Except ε α} {a : α} :
    (if c then (throw error : Except ε Unit) >>= rest else rest ()) = .ok a ↔ ¬c ∧ rest () = .ok a := by
  by_cases hc : c
  · rw [if_pos hc]
    exact iff_of_false nofun fun h => h.1 hc
  · rw [if_neg hc, and_iff_right hc]

theorem lastGuard_eq_ok {c : Prop} [Decidable c] {error : ε} :
    (if c then (throw error : Except ε Unit) else pure ()) = .ok () ↔ ¬c := by
  by_cases hc : c
  · rw [if_pos hc]
    exact iff_of_false nofun fun h => h hc
  · rw [if_neg hc]
    exact iff_of_true rfl hc

theorem forM_eq_ok {xs : List α} {f : α → Except ε Unit} :
    xs.forM f = .ok () ↔ ∀ x ∈ xs, f x = .ok () := by
  induction xs with
  | nil => simp
  | cons x xs ih =>
      change (f x >>= fun _ => xs.forM f) = .ok () ↔ _
      rw [bind_eq_ok, List.forall_mem_cons, ← ih]
      constructor
      · rintro ⟨⟨⟩, hx, hxs⟩
        exact ⟨hx, hxs⟩
      · rintro ⟨hx, hxs⟩
        exact ⟨(), hx, hxs⟩

theorem mapM_eq_ok {f : α → Except ε β} {xs : List α} {ys : List β} (h : xs.mapM f = .ok ys) :
    List.Forall₂ (fun x y => f x = .ok y) xs ys := by
  induction xs generalizing ys with
  | nil =>
      cases h
      exact .nil
  | cons x xs ih =>
      rw [List.mapM_cons] at h
      obtain ⟨y, hy, h⟩ := bind_eq_ok.1 h
      obtain ⟨ys, hys, h⟩ := bind_eq_ok.1 h
      obtain rfl := Except.ok.inj h
      exact .cons hy (ih hys)

theorem mapM_eq_error {f : α → Except ε β} {xs : List α} {e : ε} (h : xs.mapM f = .error e) :
    ∃ x ∈ xs, f x = .error e := by
  induction xs with
  | nil => cases h
  | cons x xs ih =>
      rw [List.mapM_cons] at h
      cases hx : f x with
      | error e' =>
          rw [hx] at h
          exact ⟨x, List.mem_cons_self, by rw [hx, Except.error.inj h]⟩
      | ok y =>
          rw [hx, ok_bind] at h
          cases hxs : xs.mapM f with
          | error e' =>
              rw [hxs] at h
              obtain ⟨z, hz, hfail⟩ := ih (by rw [hxs, Except.error.inj h])
              exact ⟨z, List.mem_cons_of_mem _ hz, hfail⟩
          | ok ys =>
              rw [hxs] at h
              cases h

theorem forall₂_mem_right {R : α → β → Prop} {xs : List α} {ys : List β} (h : List.Forall₂ R xs ys)
    {y : β} (hy : y ∈ ys) : ∃ x ∈ xs, R x y := by
  induction h with
  | nil => cases hy
  | cons hr _ ih =>
      rcases List.mem_cons.1 hy with rfl | hy
      · exact ⟨_, List.mem_cons_self, hr⟩
      · obtain ⟨x, hx, hr⟩ := ih hy
        exact ⟨x, List.mem_cons_of_mem _ hx, hr⟩

theorem forall₂_mem_left {R : α → β → Prop} {xs : List α} {ys : List β} (h : List.Forall₂ R xs ys)
    {x : α} (hx : x ∈ xs) : ∃ y ∈ ys, R x y := by
  obtain ⟨y, hy, hr⟩ := forall₂_mem_right h.flip hx
  exact ⟨y, hy, hr⟩

def int4 (n : Int) : Except SqlError Int :=
  if -2 ^ 31 ≤ n ∧ n < 2 ^ 31 then .ok n else .error .integerOutOfRange

def int8 (n : Int) : Except SqlError Int :=
  if -2 ^ 63 ≤ n ∧ n < 2 ^ 63 then .ok n else .error .bigintOutOfRange

theorem int4_eq_ok {n m : Int} (h : int4 n = .ok m) : m = n := by
  unfold int4 at h
  split at h <;> simp_all

theorem int8_eq_ok {n m : Int} (h : int8 n = .ok m) : m = n := by
  unfold int8 at h
  split at h <;> simp_all

/-- The nearest number with 53 significant bits, ties to even: what remains of
an integer that passes through double precision. -/
def roundToFloat8 (n : Nat) : Nat :=
  let unit := 2 ^ (n.log2 - 52)
  let quotient := n / unit
  let remainder := n % unit
  if unit < 2 * remainder ∨ unit = 2 * remainder ∧ quotient % 2 = 1 then (quotient + 1) * unit
  else quotient * unit

theorem roundToFloat8_of_lt {n : Nat} (h : n < 2 ^ 53) : roundToFloat8 n = n := by
  have hlog : n.log2 - 52 = 0 := by
    rcases Nat.eq_zero_or_pos n with rfl | hpos
    · rfl
    · have := (Nat.log2_lt (by omega : n ≠ 0)).2 h
      omega
  simp [roundToFloat8, hlog, Nat.mod_one]

/-- Rounding to double precision keeps the order of magnitude. -/
theorem le_two_mul_roundToFloat8 (n : Nat) : n ≤ 2 * roundToFloat8 n := by
  rcases Nat.lt_or_ge n (2 ^ 53) with h | h
  · rw [roundToFloat8_of_lt h]
    omega
  · have hne : n ≠ 0 := by
      have : 0 < 2 ^ 53 := by decide
      omega
    have hlog : 53 ≤ n.log2 := (Nat.le_log2 hne).2 h
    have hunit : 2 * 2 ^ (n.log2 - 52) ≤ n := by
      calc 2 * 2 ^ (n.log2 - 52) = 2 ^ (n.log2 - 52 + 1) := by rw [Nat.pow_succ, Nat.mul_comm]
        _ ≤ 2 ^ n.log2 := Nat.pow_le_pow_right (by decide) (by omega)
        _ ≤ n := Nat.log2_self_le hne
    have hpos : 0 < 2 ^ (n.log2 - 52) := Nat.pow_pos (by decide)
    have hdiv : n < n / 2 ^ (n.log2 - 52) * 2 ^ (n.log2 - 52) + 2 ^ (n.log2 - 52) :=
      Nat.lt_div_mul_add hpos
    have hround : n / 2 ^ (n.log2 - 52) * 2 ^ (n.log2 - 52) ≤ roundToFloat8 n := by
      dsimp only [roundToFloat8]
      split
      · exact Nat.mul_le_mul_right _ (Nat.le_succ _)
      · exact le_rfl
    omega

theorem roundToFloat8_le_two_mul (n : Nat) : roundToFloat8 n ≤ 2 * n := by
  rcases Nat.lt_or_ge n (2 ^ 53) with h | h
  · rw [roundToFloat8_of_lt h]
    omega
  · have hne : n ≠ 0 := by
      have : 0 < 2 ^ 53 := by decide
      omega
    have hunit : 2 ^ (n.log2 - 52) ≤ n :=
      (Nat.pow_le_pow_right (by decide) (Nat.sub_le _ _)).trans (Nat.log2_self_le hne)
    have hdiv : n / 2 ^ (n.log2 - 52) * 2 ^ (n.log2 - 52) ≤ n := Nat.div_mul_le_self _ _
    dsimp only [roundToFloat8]
    split
    · rw [Nat.succ_mul]
      omega
    · omega

def float8OfInt8 (n : Int) : Int := n.sign * roundToFloat8 n.natAbs

theorem float8OfInt8_natCast (n : Nat) : float8OfInt8 n = roundToFloat8 n := by
  rcases Nat.eq_zero_or_pos n with rfl | hpos
  · rfl
  · rw [float8OfInt8, Int.sign_natCast_of_ne_zero (by omega), Int.natAbs_natCast, Int.one_mul]

def i64Max : Int := 9223372036854775807

/-- A duration in nanoseconds as whole microseconds, rounded up. -/
def ceilMicroseconds (nanoseconds : Nat) : Nat :=
  nanoseconds / 1000 + if nanoseconds % 1000 = 0 then 0 else 1

theorem le_two_mul_float8OfInt8 (n : Nat) : (n : Int) ≤ 2 * float8OfInt8 n := by
  rw [float8OfInt8_natCast]
  exact_mod_cast le_two_mul_roundToFloat8 n

theorem le_ceilMicroseconds (duration : Nat) :
    duration ≤ 1000 * ceilMicroseconds duration ∧
      1000 * ceilMicroseconds duration < duration + 1000 := by
  unfold ceilMicroseconds
  split <;> omega

/-- `n * INTERVAL '1 microsecond'` for a bigint `n`. The multiplication is done
in double precision, since bigint has no interval operator of its own. -/
def bigintTimesMicrosecond (n : Int) : Except SqlError Int :=
  let microseconds := float8OfInt8 n
  if -2 ^ 63 ≤ microseconds ∧ microseconds < 2 ^ 63 then .ok microseconds
  else .error .intervalOutOfRange

/-- Microseconds from the Unix epoch to the epoch that timestamps are stored against. -/
def postgresEpoch : Int := 946684800000000

def minTimestamp : Int := -211813488000000000 + postgresEpoch

def endTimestamp : Int := 9223371331200000000 + postgresEpoch

/-- A timestamptz in Unix microseconds, within the range the type admits. -/
def timestamptz (microseconds : Int) : Except SqlError Int :=
  if minTimestamp ≤ microseconds ∧ microseconds < endTimestamp then .ok microseconds
  else .error .timestampOutOfRange

/-- `now + (n * INTERVAL '1 microsecond')`. -/
def timestampPlusMicroseconds (now n : Int) : Except SqlError Int := do
  timestamptz (now + (← bigintTimesMicrosecond n))

/-- `now - (n * INTERVAL '1 microsecond')`. -/
def timestampMinusMicroseconds (now n : Int) : Except SqlError Int := do
  timestamptz (now - (← bigintTimesMicrosecond n))

/-- `floor(EXTRACT(EPOCH FROM t) * 1000000)::bigint`. -/
def unixMicroseconds (timestamp : Int) : Except SqlError Int := int8 timestamp

theorem timestamptz_eq_ok {n m : Int} (h : timestamptz n = .ok m) : m = n := by
  unfold timestamptz at h
  split at h <;> simp_all

theorem timestampPlusMicroseconds_eq_ok {now n t : Int} (h : timestampPlusMicroseconds now n = .ok t) :
    t = now + float8OfInt8 n ∧ float8OfInt8 n < 2 ^ 63 := by
  obtain ⟨interval, hinterval, ht⟩ := bind_eq_ok.1 h
  dsimp only [bigintTimesMicrosecond] at hinterval
  split at hinterval
  · rename_i hrange
    rw [timestamptz_eq_ok ht, ← Except.ok.inj hinterval]
    exact ⟨rfl, hrange.2⟩
  · cases hinterval

theorem timestampMinusMicroseconds_eq_ok {now n t : Int} (h : timestampMinusMicroseconds now n = .ok t) :
    t = now - float8OfInt8 n := by
  obtain ⟨interval, hinterval, ht⟩ := bind_eq_ok.1 h
  dsimp only [bigintTimesMicrosecond] at hinterval
  split at hinterval
  · rw [timestamptz_eq_ok ht, ← Except.ok.inj hinterval]
  · cases hinterval

theorem timestampPlusMicroseconds_lt_endTimestamp {now n t : Int}
    (h : timestampPlusMicroseconds now n = .ok t) :
    t < endTimestamp := by
  obtain ⟨interval, -, ht⟩ := bind_eq_ok.1 h
  unfold timestamptz at ht
  split at ht
  · rename_i hrange
    cases ht
    exact hrange.2
  · cases ht

end Paranoid.Postgres
