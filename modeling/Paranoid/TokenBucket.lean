import Mathlib.Algebra.Order.Field.Basic
import Mathlib.Tactic.Linarith
import Mathlib.Tactic.Ring

namespace Paranoid.TokenBucket

variable {K : Type*} [Field K] [LinearOrder K] [IsStrictOrderedRing K]

/-- A bucket that held `level` tokens at the instant `mark`. -/
structure Bucket (K : Type*) where
  level : K
  mark : K

def Bucket.refill (capacity rate now : K) (b : Bucket K) : Bucket K :=
  ⟨min (b.level + (now - b.mark) * rate) capacity, now⟩

def Bucket.take (b : Bucket K) : Bucket K := { b with level := b.level - 1 }

def Bucket.full (capacity now : K) : Bucket K := ⟨capacity, now⟩

/-- What was spent since `start` and what is left are covered by one full bucket,
the tokens that flowed in since then, and what was lent where the level was not exact. -/
structure Covered (capacity rate start spent lent : K) (b : Bucket K) : Prop where
  after_start : start ≤ b.mark
  paid : spent + max (min b.level capacity) 0 ≤ capacity + (b.mark - start) * rate + lent

variable {capacity rate start spent lent now : K} {b : Bucket K}

omit [IsStrictOrderedRing K] in
theorem covered_start (rate : K) (b : Bucket K) (hcapacity : 0 ≤ capacity) :
    Covered capacity rate b.mark 0 0 b := by
  refine ⟨le_rfl, ?_⟩
  have hlevel : max (min b.level capacity) 0 ≤ capacity := max_le (min_le_right _ _) hcapacity
  simpa using hlevel

/-- A level that is higher by `more` at most has to be lent that much. -/
theorem covered_lend {level more : K} (h : Covered capacity rate start spent lent b)
    (hmore : 0 ≤ more) (hlevel : level ≤ b.level + more) :
    Covered capacity rate start spent (lent + more) ⟨level, b.mark⟩ := by
  refine ⟨h.after_start, ?_⟩
  have hraised : max (min level capacity) 0 ≤ max (min b.level capacity) 0 + more := by
    apply max_le
    · calc min level capacity ≤ min (b.level + more) (capacity + more) :=
            min_le_min hlevel (le_add_of_nonneg_right hmore)
        _ = min b.level capacity + more := min_add_add_right _ _ _
        _ ≤ max (min b.level capacity) 0 + more := add_le_add (le_max_left _ _) le_rfl
    · exact add_nonneg (le_max_right _ _) hmore
  have hpaid := h.paid
  linarith

/-- A refill credits the interval since the mark, once: the mark moves along. -/
theorem covered_refill (hrate : 0 ≤ rate) (hnow : b.mark ≤ now)
    (h : Covered capacity rate start spent lent b) :
    Covered capacity rate start spent lent (b.refill capacity rate now) := by
  have hflow : 0 ≤ (now - b.mark) * rate := mul_nonneg (sub_nonneg.2 hnow) hrate
  refine ⟨h.after_start.trans hnow, ?_⟩
  have hlevel : max (min (b.refill capacity rate now).level capacity) 0 ≤
      max (min b.level capacity) 0 + (now - b.mark) * rate := by
    apply max_le
    · simp only [Bucket.refill, min_assoc, min_self]
      rcases le_total b.level capacity with hb | hb
      · calc min (b.level + (now - b.mark) * rate) capacity
            ≤ b.level + (now - b.mark) * rate := min_le_left _ _
          _ ≤ max (min b.level capacity) 0 + (now - b.mark) * rate := by
            rw [min_eq_left hb]
            exact add_le_add (le_max_left _ _) le_rfl
      · calc min (b.level + (now - b.mark) * rate) capacity ≤ capacity := min_le_right _ _
          _ ≤ max (min b.level capacity) 0 := by
            rw [min_eq_right hb]
            exact le_max_left _ _
          _ ≤ max (min b.level capacity) 0 + (now - b.mark) * rate := le_add_of_nonneg_right hflow
    · exact add_nonneg (le_max_right _ _) hflow
  have hpaid := h.paid
  have hsplit : (now - start) * rate = (b.mark - start) * rate + (now - b.mark) * rate := by ring
  simp only [Bucket.refill] at hlevel ⊢
  linarith

theorem covered_take (hlevel : 1 ≤ b.level) (hcapacity : b.level ≤ capacity)
    (h : Covered capacity rate start spent lent b) : Covered capacity rate start (spent + 1) lent b.take := by
  refine ⟨h.after_start, ?_⟩
  have hpaid := h.paid
  have hafter : max (min b.take.level capacity) 0 = b.level - 1 := by
    have hle : b.take.level ≤ capacity := (sub_le_self _ zero_le_one).trans hcapacity
    rw [min_eq_left hle]
    exact max_eq_left (sub_nonneg.2 hlevel)
  have hbefore : max (min b.level capacity) 0 = b.level := by
    rw [min_eq_left hcapacity]
    exact max_eq_left (zero_le_one.trans hlevel)
  rw [hbefore] at hpaid
  rw [hafter]
  simp only [Bucket.take]
  linarith

/-- Of two credits in a row, the cap after the first one cannot be told from the second. -/
theorem min_min_add {level credit more : K} (hmore : 0 ≤ more) :
    min (min (level + credit) capacity + more) capacity = min (level + (credit + more)) capacity := by
  rcases le_total (level + credit) capacity with hle | hle
  · rw [min_eq_left hle, add_assoc]
  · rw [min_eq_right hle, min_eq_right (le_add_of_nonneg_right hmore), min_eq_right]
    rw [← add_assoc]
    exact hle.trans (le_add_of_nonneg_right hmore)

/-- A bucket that is forgotten and made anew loses nothing when it would have
filled up in the meantime, or when nothing has been spent. -/
theorem covered_full (hrate : 0 ≤ rate) (hcapacity : 0 ≤ capacity) (hlent : 0 ≤ lent) (hnow : b.mark ≤ now)
    (hidle : spent = 0 ∨ capacity ≤ (now - b.mark) * rate)
    (h : Covered capacity rate start spent lent b) :
    Covered capacity rate start spent lent (Bucket.full capacity now) := by
  refine ⟨h.after_start.trans hnow, ?_⟩
  have hfull : max (min (Bucket.full capacity now).level capacity) 0 = capacity := by
    simp [Bucket.full, hcapacity]
  rw [hfull]
  have hsplit : (now - start) * rate = (b.mark - start) * rate + (now - b.mark) * rate := by ring
  have hsince : 0 ≤ (b.mark - start) * rate := mul_nonneg (sub_nonneg.2 h.after_start) hrate
  have hflow : 0 ≤ (now - b.mark) * rate := mul_nonneg (sub_nonneg.2 hnow) hrate
  simp only [Bucket.full]
  rcases hidle with rfl | hfill
  · linarith
  · have hpaid := h.paid
    have hleft : 0 ≤ max (min b.level capacity) 0 := le_max_right _ _
    linarith

theorem spent_le {latest : K} (hrate : 0 ≤ rate) (hlatest : b.mark ≤ latest)
    (h : Covered capacity rate start spent lent b) :
    spent ≤ capacity + (latest - start) * rate + lent := by
  have hleft : 0 ≤ max (min b.level capacity) 0 := le_max_right _ _
  have hpaid := h.paid
  have hmono : (b.mark - start) * rate ≤ (latest - start) * rate :=
    mul_le_mul_of_nonneg_right (sub_le_sub_right hlatest _) hrate
  linarith

end Paranoid.TokenBucket
