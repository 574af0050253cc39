import Paranoid.Binary64

namespace Paranoid.DecimalText

open Binary64 List

section Digits

def ofDigits (digits : List Char) : Nat := Nat.ofDigitChars 10 digits 0

def natText (n : Nat) : List Char := Nat.toDigits 10 n

def intText (n : Int) : List Char := if n < 0 then '-' :: natText n.natAbs else natText n.natAbs

variable {n : Nat} {digits rest : List Char}

@[simp] theorem ofDigits_natText (n : Nat) : ofDigits (natText n) = n := Nat.ofDigitChars_ten_toDigits

theorem isDigit_of_mem_natText {c : Char} (h : c ∈ natText n) : c.isDigit :=
  Nat.isDigit_of_mem_toDigits (by decide) (by decide) h

theorem natText_ne_nil : natText n ≠ [] := Nat.toDigits_ne_nil

theorem ofDigits_append (digits rest : List Char) :
    ofDigits (digits ++ rest) = ofDigits digits * 10 ^ rest.length + ofDigits rest := by
  rw [ofDigits, Nat.ofDigitChars_append, Nat.ofDigitChars_eq_ofDigitChars_zero, mul_comm]
  rfl

theorem ofDigits_zeros (k : Nat) : ofDigits (replicate k '0') = 0 := by
  rw [ofDigits, Nat.ofDigitChars_replicate_zero, mul_zero]

/-- A run of digits, and what follows it. -/
def readDigits (text : List Char) : List Char × List Char :=
  (text.takeWhile Char.isDigit, text.dropWhile Char.isDigit)

theorem readDigits_append (hdigits : ∀ d ∈ digits, d.isDigit)
    (hrest : ∀ c ∈ rest.head?, c.isDigit = false) :
    readDigits (digits ++ rest) = (digits, rest) := by
  have hnone : rest.takeWhile Char.isDigit = [] ∧ rest.dropWhile Char.isDigit = rest := by
    cases rest with
    | nil => exact ⟨rfl, rfl⟩
    | cons c rest =>
        have hc : c.isDigit = false := hrest c rfl
        constructor
        · rw [takeWhile_cons, if_neg (by simp [hc])]
        · rw [dropWhile_cons, if_neg (by simp [hc])]
  rw [readDigits, takeWhile_append_of_pos hdigits,
    dropWhile_append_of_pos hdigits, hnone.1, hnone.2, append_nil]

end Digits

section Numerals

/-- The digits behind a point, if there is one. -/
def readFraction (text : List Char) : List Char × List Char :=
  match text with
  | '.' :: rest => readDigits rest
  | _ => ([], text)

def readSign (text : List Char) : Bool × List Char :=
  match text with
  | '-' :: rest => (true, rest)
  | '+' :: rest => (false, rest)
  | _ => (false, text)

def signed (negative : Bool) (n : Nat) : Int := if negative then -n else n

/-- The power of ten behind an `e`, if there is one. -/
def readExponent (text : List Char) : Int × List Char :=
  match text with
  | [] => (0, [])
  | c :: rest =>
      let sign := readSign rest
      let digits := readDigits sign.2
      if (c = 'e' ∨ c = 'E') ∧ digits.1 ≠ [] then (signed sign.1 (ofDigits digits.1), digits.2) else (0, text)

/-- An unsigned numeral, and what follows it. -/
def readNumeral (text : List Char) : Option (ℚ × List Char) :=
  let whole := readDigits text
  let fraction := readFraction whole.2
  let exponent := readExponent fraction.2
  if whole.1 = [] then none
  else some (ofDigits (whole.1 ++ fraction.1) * 10 ^ (exponent.1 - fraction.1.length), exponent.2)

/-- Nothing that a numeral could go on with. -/
def Ends (rest : List Char) : Prop := ∀ c ∈ rest.head?, c.isDigit = false ∧ c ≠ '.' ∧ c ≠ 'e' ∧ c ≠ 'E'

variable {whole fraction rest : List Char}

theorem Ends.not_digit (h : Ends rest) : ∀ c ∈ rest.head?, c.isDigit = false := fun c hc => (h c hc).1

theorem readFraction_of_ends (h : Ends rest) : readFraction rest = ([], rest) := by
  unfold readFraction
  split
  next tail => exact absurd rfl (h '.' rfl).2.1
  next => rfl

theorem readExponent_of_ends (h : Ends rest) : readExponent rest = (0, rest) := by
  cases rest with
  | nil => rfl
  | cons c rest =>
      obtain ⟨-, -, hlower, hupper⟩ := h c rfl
      rw [readExponent]
      exact if_neg fun he => he.1.elim hlower hupper

theorem readSign_intText (n : Int) (rest : List Char) :
    readSign (intText n ++ rest) = (decide (n < 0), natText n.natAbs ++ rest) := by
  rw [intText]
  split_ifs with hn
  · rw [decide_eq_true hn]
    rfl
  · rw [decide_eq_false hn]
    obtain ⟨d, digits, hdigits⟩ := exists_cons_of_ne_nil (@natText_ne_nil n.natAbs)
    have hd : d.isDigit := isDigit_of_mem_natText (hdigits ▸ mem_cons_self)
    rw [hdigits, cons_append, readSign]
    · rintro tail ⟨⟩
      exact absurd hd (by decide)
    · rintro tail ⟨⟩
      exact absurd hd (by decide)

theorem signed_natAbs (n : Int) : signed (decide (n < 0)) n.natAbs = n := by
  rw [signed]
  split_ifs with h
  · have h := of_decide_eq_true h
    omega
  · have h := of_decide_eq_false (Bool.eq_false_iff.2 h)
    omega

theorem readExponent_intText (n : Int) (h : Ends rest) :
    readExponent ('e' :: (intText n ++ rest)) = (n, rest) := by
  have hdigits : readDigits (natText n.natAbs ++ rest) = (natText n.natAbs, rest) :=
    readDigits_append (fun d => isDigit_of_mem_natText) h.not_digit
  rw [readExponent, readSign_intText]
  dsimp only
  rw [hdigits, if_pos ⟨.inl rfl, natText_ne_nil⟩, ofDigits_natText, signed_natAbs]

/-- Digits around a point are read back. -/
theorem readNumeral_point (hwhole : ∀ d ∈ whole, d.isDigit)
    (hne : whole ≠ []) (hfraction : ∀ d ∈ fraction, d.isDigit)
    (h : Ends rest) :
    readNumeral (whole ++ '.' :: (fraction ++ rest)) =
      some ((ofDigits (whole ++ fraction) : ℚ) * 10 ^ (-fraction.length : Int), rest) := by
  have hdigits : readDigits (whole ++ '.' :: (fraction ++ rest)) = (whole, '.' :: (fraction ++ rest)) :=
    readDigits_append hwhole (by rintro c ⟨⟩; rfl)
  have hpoint : readFraction ('.' :: (fraction ++ rest)) = (fraction, rest) :=
    readDigits_append hfraction h.not_digit
  rw [readNumeral, hdigits]
  dsimp only
  rw [hpoint]
  dsimp only
  rw [readExponent_of_ends h, if_neg hne, zero_sub]

/-- So are digits and a power of ten. -/
theorem readNumeral_exponent (hwhole : ∀ d ∈ whole, d.isDigit)
    (hne : whole ≠ []) (hfraction : ∀ d ∈ fraction, d.isDigit)
    (n : Int) (h : Ends rest) :
    readNumeral (whole ++
      ((if fraction = [] then [] else '.' :: fraction) ++ 'e' :: (intText n ++ rest))) =
      some ((ofDigits (whole ++ fraction) : ℚ) * 10 ^ (n - fraction.length), rest) := by
  have hdigits (tail : List Char) (htail : ∀ c ∈ tail.head?, c.isDigit = false) :
      readDigits (whole ++ tail) = (whole, tail) := readDigits_append hwhole htail
  by_cases hnil : fraction = []
  · rw [if_pos hnil, nil_append, readNumeral, hdigits _ (by rintro c ⟨⟩; rfl)]
    dsimp only
    rw [readFraction, readExponent_intText n h, if_neg hne, hnil]
    rintro tail ⟨⟩
  · have hpoint : readFraction ('.' :: fraction ++ 'e' :: (intText n ++ rest)) =
      (fraction, 'e' :: (intText n ++ rest)) :=
      readDigits_append hfraction (by rintro c ⟨⟩; rfl)
    rw [if_neg hnil, readNumeral, hdigits _ (by rintro c ⟨⟩; rfl)]
    dsimp only
    rw [hpoint]
    dsimp only
    rw [readExponent_intText n h, if_neg hne]

theorem readNumeral_natText (n : Nat) (h : Ends rest) :
    readNumeral (natText n ++ rest) = some ((n : ℚ), rest) := by
  have hdigits : readDigits (natText n ++ rest) = (natText n, rest) :=
    readDigits_append (fun d => isDigit_of_mem_natText) h.not_digit
  rw [readNumeral, hdigits]
  dsimp only
  rw [readFraction_of_ends h]
  dsimp only
  rw [readExponent_of_ends h, if_neg natText_ne_nil, append_nil, ofDigits_natText]
  simp

end Numerals

section Floats

/-- Digits with the point where the power of ten puts it, and a digit on either side of it. -/
def decimalText (digits : List Char) (exponent : Int) : List Char :=
  let point : Int := digits.length + exponent
  if point ≤ 0 then '0' :: '.' :: (replicate (-point).toNat '0' ++ digits)
  else if point < digits.length then digits.take point.toNat ++ '.' :: digits.drop point.toNat
  else digits ++ replicate (point - digits.length).toNat '0' ++ ['.', '0']

/-- Digits with the point behind the first of them, and a power of ten. -/
def exponentialText (digits : List Char) (exponent : Int) : List Char :=
  digits.take 1 ++ ((if digits.drop 1 = [] then [] else '.' :: digits.drop 1) ++
    'e' :: intText (digits.length + exponent - 1))

/-- `1e-4` -/
def tenThousandth : Magnitude := ⟨7378697629483821, 1008, by decide, by decide, by decide⟩

example : nearest (1 / 10 ^ 4) = some tenThousandth := by decide +kernel

/-- `{:?}` of a finite `f64` without its sign: the shortest digits that are read back, with a power of ten for the very large
and the very small. -/
def magnitudeText (x : Magnitude) : List Char :=
  if x.significand = 0 then ['0', '.', '0']
  else if x.value < tenThousandth.value ∨ 10 ^ 16 ≤ x.value then
    exponentialText (natText (shortestDigits x)) (shortestExponent x)
  else decimalText (natText (shortestDigits x)) (shortestExponent x)

variable {digits rest : List Char} {exponent : Int}

theorem isDigit_of_mem_zeros {k : Nat} {c : Char} (h : c ∈ replicate k '0') : c.isDigit := by
  rw [eq_of_mem_replicate h]
  rfl

theorem readNumeral_decimalText (hdigits : ∀ d ∈ digits, d.isDigit) (h : Ends rest) :
    readNumeral (decimalText digits exponent ++ rest) =
      some ((ofDigits digits : ℚ) * 10 ^ exponent, rest) := by
  unfold decimalText
  dsimp only
  split_ifs with hsmall hinside
  · have hfraction : ∀ d ∈ replicate (-(digits.length + exponent)).toNat '0' ++ digits,
      d.isDigit := fun d hd =>
      (mem_append.1 hd).elim isDigit_of_mem_zeros (hdigits d)
    have hvalue : ofDigits (['0'] ++
      (replicate (-(digits.length + exponent)).toNat '0' ++ digits)) = ofDigits digits := by
      rw [← append_assoc, ofDigits_append, singleton_append, ← replicate_succ,
        ofDigits_zeros, zero_mul, zero_add]
    have hplaces : -(((-(digits.length + exponent)).toNat + digits.length : Nat) : Int) =
      exponent := by omega
    have hread := @readNumeral_point ['0'] _ _ (by simp) (by simp) hfraction h
    rwa [hvalue, length_append, length_replicate, hplaces] at hread
  · have hplaces : -((digits.length - (digits.length + exponent).toNat : Nat) : Int) = exponent :=
      by omega
    have hne : digits.take (digits.length + exponent).toNat ≠ [] := by
      rw [← length_pos_iff, length_take]
      omega
    have hdrop : ∀ d ∈ digits.drop (digits.length + exponent).toNat, d.isDigit := fun d hd =>
      hdigits d (mem_of_mem_drop hd)
    have hread := readNumeral_point (fun d hd => hdigits d (mem_of_mem_take hd)) hne hdrop h
    rw [take_append_drop, length_drop, hplaces] at hread
    rw [append_assoc, cons_append, hread]
  · obtain ⟨zeros, rfl⟩ : ∃ zeros : Nat, exponent = zeros := ⟨exponent.toNat, by omega⟩
    have hzeros : (digits.length + (zeros : Int) - digits.length).toNat = zeros := by omega
    have hall : ∀ d ∈ digits ++ replicate zeros '0', d.isDigit := fun d hd =>
      (mem_append.1 hd).elim (hdigits d) isDigit_of_mem_zeros
    have hne : digits ++ replicate zeros '0' ≠ [] := by
      rw [← length_pos_iff, length_append, length_replicate]
      omega
    have hread := @readNumeral_point _ ['0'] _ hall hne (by simp) h
    have hvalue : ofDigits (digits ++ replicate zeros '0' ++ ['0']) =
      ofDigits digits * 10 ^ (zeros + 1) := by
      rw [append_assoc, ← replicate_succ', ofDigits_append, ofDigits_zeros, length_replicate, add_zero]
    rw [hzeros, append_assoc, cons_append, cons_append, nil_append]
    refine hread.trans ?_
    rw [hvalue, length_singleton, Nat.cast_mul, Nat.cast_pow,
      Nat.cast_ofNat, Nat.cast_one, zpow_neg_one, pow_succ, zpow_natCast]
    field_simp

theorem readNumeral_exponentialText (hdigits : ∀ d ∈ digits, d.isDigit)
    (hne : digits ≠ []) (h : Ends rest) :
    readNumeral (exponentialText digits exponent ++ rest) =
      some ((ofDigits digits : ℚ) * 10 ^ exponent, rest) := by
  have hpos : 0 < digits.length := length_pos_of_ne_nil hne
  have hplaces : digits.length + exponent - 1 - ((digits.length - 1 : Nat) : Int) = exponent := by omega
  have htake : digits.take 1 ≠ [] := by
    rw [← length_pos_iff, length_take]
    omega
  have hdrop : ∀ d ∈ digits.drop 1, d.isDigit := fun d hd => hdigits d (mem_of_mem_drop hd)
  have hread := readNumeral_exponent (fun d hd => hdigits d (mem_of_mem_take hd))
    htake hdrop (digits.length + exponent - 1) h
  rw [take_append_drop, length_drop, hplaces] at hread
  rw [exponentialText, append_assoc, append_assoc, cons_append, hread]

/-- A finite number is read back from its text. -/
theorem readNumeral_magnitudeText (x : Magnitude) (h : Ends rest) :
    ∃ q, readNumeral (magnitudeText x ++ rest) = some (q, rest) ∧ nearest q = some x := by
  have hdigits : ∀ d ∈ natText (shortestDigits x), d.isDigit := fun d => isDigit_of_mem_natText
  have hshortest := standsFor_shortest x
  unfold magnitudeText
  split_ifs with hzero hexponent
  · refine ⟨_, @readNumeral_point ['0'] ['0'] _ (by simp) (by simp) (by simp) h, ?_⟩
    have hvalue : x.value = 0 := by
      rw [Magnitude.value, Magnitude.units, hzero, Nat.zero_mul, Nat.cast_zero, zero_div]
    rw [show ofDigits (['0'] ++ ['0']) = 0 from rfl, Nat.cast_zero, zero_mul, ← hvalue, nearest_value]
  · refine ⟨_, readNumeral_exponentialText hdigits natText_ne_nil h, ?_⟩
    rwa [ofDigits_natText]
  · refine ⟨_, readNumeral_decimalText hdigits h, ?_⟩
    rwa [ofDigits_natText]

end Floats

end Paranoid.DecimalText
