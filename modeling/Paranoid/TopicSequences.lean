import Paranoid.DecimalText
import Paranoid.TemplateScanner
import Paranoid.TopicScans

namespace Paranoid.TopicSequences

open DecimalText List PaddedDecimal Postgres Utf8Text
open TemplateScanner (isAsciiDigit isAsciiDigit_firstByte)

inductive SequenceError
  | topicSequenceMustBeNonNegative
  | invalidTopicEventSequenceSuffix (keySuffix : String)
  deriving DecidableEq

section Suffixes

def validateNonNegativeTopicSequence (sequence : Int64) : Except SequenceError Unit :=
  if sequence < 0 then .error .topicSequenceMustBeNonNegative else .ok ()

/-- A number in at least `width` characters, with zeros between its sign and its digits. -/
def zeroPadded (width : Nat) (n : Int) : List Char :=
  let sign := if n < 0 then ['-'] else []
  let digits := natText n.natAbs
  sign ++ (replicate (width - (sign.length + digits.length)) '0' ++ digits)

def topicSequenceKeySuffix (sequence : Int64) : Except SequenceError String := do
  validateNonNegativeTopicSequence sequence
  return String.ofList (zeroPadded 20 sequence.toInt)

/-- A number that fits 64 bits. -/
def i64OfInt (n : Int) : Option Int64 :=
  if -2 ^ 63 ≤ n ∧ n < 2 ^ 63 then some (Int64.ofInt n) else none

def checkedMul (a b : Int64) : Option Int64 := i64OfInt (a.toInt * b.toInt)

def checkedAdd (a b : Int64) : Option Int64 := i64OfInt (a.toInt + b.toInt)

def checkedSub (a b : Int64) : Option Int64 := i64OfInt (a.toInt - b.toInt)

/-- A digit more of a number that is read, away from zero. -/
def pushDigit (negative : Bool) (n : Int64) (c : Char) : Option Int64 :=
  if c.isDigit then do
    let tens ← checkedMul n 10
    if negative then checkedSub tens (Int64.ofNat (digitValue c))
    else checkedAdd tens (Int64.ofNat (digitValue c))
  else none

/-- `str::parse::<i64>` -/
def parseI64 (text : List Char) : Option Int64 :=
  match text with
  | [] | ['+'] | ['-'] => none
  | '+' :: digits => digits.foldlM (pushDigit false) 0
  | '-' :: digits => digits.foldlM (pushDigit true) 0
  | digits => digits.foldlM (pushDigit false) 0

def parseTopicSequenceKeySuffix (keySuffix : String) : Except SequenceError Int64 :=
  if keySuffix.utf8ByteSize ≠ 20 ∨ !(utf8 keySuffix.toList).all isAsciiDigit then
    .error (.invalidTopicEventSequenceSuffix keySuffix)
  else
    match parseI64 keySuffix.toList with
    | some sequence => .ok sequence
    | none => .error (.invalidTopicEventSequenceSuffix keySuffix)

end Suffixes

section Numbers

variable {n : Int64} {a : Int} {digits : List Char}

theorem i64OfInt_eq_some : i64OfInt a = some n ↔ n.toInt = a := by
  rw [i64OfInt]
  constructor
  · intro h
    split_ifs at h with hrange
    rw [← Option.some.inj h, Int64.toInt_ofInt_of_le hrange.1 hrange.2]
  · rintro rfl
    rw [if_pos ⟨n.le_toInt, n.toInt_lt⟩, Int64.ofInt_toInt]

theorem i64OfInt_of_ge (h : 2 ^ 63 ≤ a) : i64OfInt a = none := if_neg fun hrange => by omega

theorem toInt_digit {c : Char} (h : c.isDigit) :
    (Int64.ofNat (digitValue c)).toInt = digitValue c := by
  have hdigit := (digitChar_digitValue h).1
  rw [← Int64.ofInt_eq_ofNat, Int64.toInt_ofInt_of_le (by omega) (by omega)]

/-- A digit is read if the number with it fits, since then the number before it fits too. -/
theorem pushDigit_eq {m : Nat} {c : Char} (hn : n.toInt = m) (hc : c.isDigit) :
    pushDigit false n c = i64OfInt (m * 10 + digitValue c) := by
  have hten : (10 : Int64).toInt = 10 := rfl
  rw [pushDigit, if_pos hc, checkedMul, hn, hten]
  rcases lt_or_ge ((m : Int) * 10) (2 ^ 63) with hlt | hge
  · have htens : i64OfInt (m * 10) = some (Int64.ofInt (m * 10)) := if_pos ⟨by omega, hlt⟩
    rw [htens]
    change checkedAdd (Int64.ofInt (m * 10)) (Int64.ofNat (digitValue c)) = _
    rw [checkedAdd, toInt_digit hc, i64OfInt_eq_some.1 htens]
  · rw [i64OfInt_of_ge hge, i64OfInt_of_ge (by omega)]
    rfl

theorem le_foldl_digits (m : Nat) (digits : List Char) :
    m ≤ digits.foldl (fun n c => n * 10 + digitValue c) m := by
  induction digits generalizing m with
  | nil => exact le_rfl
  | cons c digits ih =>
      rw [foldl_cons]
      exact le_trans (show m ≤ m * 10 + digitValue c by omega) (ih _)

theorem foldlM_pushDigit (hdigits : ∀ c ∈ digits, c.isDigit) {m : Nat} (hn : n.toInt = m) :
    digits.foldlM (pushDigit false) n =
      i64OfInt (digits.foldl (fun n c => n * 10 + digitValue c) m : Nat) := by
  induction digits generalizing m n with
  | nil => exact (i64OfInt_eq_some.2 hn).symm
  | cons c digits ih =>
      rw [forall_mem_cons] at hdigits
      rw [foldlM_cons, pushDigit_eq hn hdigits.1, foldl_cons]
      rcases hnext : i64OfInt (m * 10 + digitValue c) with _ | next
      · have hgrown := le_foldl_digits (m * 10 + digitValue c) digits
        have hlarge : (2 : Int) ^ 63 ≤ m * 10 + digitValue c := by
          by_contra hsmall
          rw [i64OfInt, if_pos ⟨by omega, by omega⟩] at hnext
          cases hnext
        rw [i64OfInt_of_ge (by omega)]
        rfl
      · exact ih hdigits.2 (by rw [i64OfInt_eq_some.1 hnext]; rfl)

theorem parseI64_digits (hne : digits ≠ []) (hdigits : ∀ c ∈ digits, c.isDigit) :
    parseI64 digits = i64OfInt (value digits : Nat) := by
  have hread : digits.foldlM (pushDigit false) 0 = i64OfInt (value digits : Nat) :=
    foldlM_pushDigit hdigits (m := 0) rfl
  unfold parseI64
  split
  · exact absurd rfl hne
  · exact absurd (hdigits '+' mem_cons_self) (by decide)
  · exact absurd (hdigits '-' mem_cons_self) (by decide)
  · exact absurd (hdigits '+' mem_cons_self) (by decide)
  · exact absurd (hdigits '-' mem_cons_self) (by decide)
  · exact hread

end Numbers

section Order

variable {n : Int64} {m : Nat} {text : String}

/-- Exactly the bytes of ASCII digits are digits. -/
theorem all_isAsciiDigit {chars : List Char} :
    (utf8 chars).all isAsciiDigit ↔ ∀ c ∈ chars, c.isDigit := by
  induction chars with
  | nil => exact iff_of_true rfl nofun
  | cons c chars ih =>
      rw [utf8_cons, all_append, Bool.and_eq_true, ih, forall_mem_cons]
      refine and_congr_left fun _ => ?_
      rw [← isAsciiDigit_firstByte]
      by_cases hc : isAscii c
      · rw [encode_ascii hc, firstByte_ascii hc, all_cons, all_nil, Bool.and_true]
      · obtain ⟨tail, htail⟩ := encode_eq_cons c
        have hhigh := firstByte_high (Bool.eq_false_of_not_eq_true hc)
        have hfirst : isAsciiDigit (firstByte c) = false := by
          rw [isAsciiDigit, Bool.and_eq_false_iff, decide_eq_false_iff_not, decide_eq_false_iff_not]
          omega
        rw [htail, all_cons, hfirst, Bool.false_and]

theorem topicSequenceKeySuffix_of_nonneg (h : 0 ≤ n) :
    topicSequenceKeySuffix n = .ok (String.ofList (zeroPadded 20 n.toInt)) := by
  have hnot : ¬n < 0 := by
    rw [Int64.lt_iff_toInt_lt, not_lt]
    exact Int64.le_iff_toInt_le.1 h
  rw [topicSequenceKeySuffix, validateNonNegativeTopicSequence, if_neg hnot]
  rfl

theorem value_eq_ofDigits (chars : List Char) : value chars = ofDigits chars := by
  rw [value, ofDigits, Nat.ofDigitChars_eq_foldl]
  congr 1
  funext n c
  rw [Nat.mul_comm]
  rfl

/-- A number with fewer digits than there is room for is padded to them. -/
theorem zeroPadded_eq {width : Nat} (hpositive : 0 < width) (h : m < 10 ^ width) :
    zeroPadded width m = padded width m := by
  have hlength : (natText m).length ≤ width :=
    (Nat.length_toDigits_le_iff (by decide) hpositive).2 h
  have hzeros : zeroPadded width m =
      replicate (width - (natText m).length) '0' ++ natText m := by
    have hsign : ¬(m : Int) < 0 := by omega
    simp only [zeroPadded, if_neg hsign, length_nil, Nat.zero_add, nil_append, Int.natAbs_natCast]
  have hdigits : ∀ c ∈ zeroPadded width m, c.isDigit := by
    rw [hzeros, forall_mem_append]
    exact ⟨fun c hc => by rw [eq_of_mem_replicate hc]; rfl, fun c hc => isDigit_of_mem_natText hc⟩
  have hwidth : (zeroPadded width m).length = width := by
    rw [hzeros, length_append, length_replicate]
    omega
  have hvalue : value (zeroPadded width m) = m := by
    rw [hzeros, value_eq_ofDigits, ofDigits_append, ofDigits_zeros, ofDigits_natText, Nat.zero_mul,
      Nat.zero_add]
  have hpadded := padded_value hdigits
  rw [hwidth, hvalue] at hpadded
  exact hpadded.symm

/-- A sequence has the key suffix that it has as a natural number. -/
theorem topicSequenceKeySuffix_eq_ok :
    topicSequenceKeySuffix n = .ok text ↔
      ∃ m : Nat, n.toInt = m ∧ text = TopicModel.topicSequenceKeySuffix m := by
  have hpadded (m : Nat) (hm : n.toInt = m) :
      String.ofList (zeroPadded 20 n.toInt) = TopicModel.topicSequenceKeySuffix m := by
    have hfits := n.toInt_lt
    rw [hm, zeroPadded_eq (by decide) (by omega), TopicModel.topicSequenceKeySuffix]
  constructor
  · intro h
    have hnonneg : 0 ≤ n := by
      by_contra hneg
      rw [topicSequenceKeySuffix, validateNonNegativeTopicSequence,
        if_pos (Int64.not_le.1 hneg)] at h
      cases h
    rw [topicSequenceKeySuffix_of_nonneg hnonneg] at h
    have hint : n.toInt = n.toInt.toNat := by
      have hle : 0 ≤ n.toInt := Int64.le_iff_toInt_le.1 hnonneg
      omega
    exact ⟨n.toInt.toNat, hint, by rw [← hpadded _ hint, ← Except.ok.inj h]⟩
  · rintro ⟨m, hm, rfl⟩
    have hnonneg : 0 ≤ n := by
      rw [Int64.le_iff_toInt_le, hm]
      exact Int.natCast_nonneg m
    rw [topicSequenceKeySuffix_of_nonneg hnonneg, hpadded m hm]

/-- Twenty digits are read if their value fits 64 bits, and nothing else is. -/
theorem parseTopicSequenceKeySuffix_eq_ok :
    parseTopicSequenceKeySuffix text = .ok n ↔
      text.toList.length = 20 ∧ (∀ c ∈ text.toList, c.isDigit) ∧ n.toInt = value text.toList := by
  have hchecks : ¬(text.utf8ByteSize ≠ 20 ∨ !(utf8 text.toList).all isAsciiDigit) ↔
      text.toList.length = 20 ∧ ∀ c ∈ text.toList, c.isDigit := by
    rw [not_or, not_not, Bool.not_eq_true', Bool.not_eq_false, all_isAsciiDigit]
    refine and_congr_left fun hdigits => ?_
    rw [← utf8Len_digits hdigits, ← utf8ByteSize_ofList, String.ofList_toList]
  have hread (hlength : text.toList.length = 20) (hdigits : ∀ c ∈ text.toList, c.isDigit) :
      parseI64 text.toList = some n ↔ n.toInt = value text.toList := by
    have hne : text.toList ≠ [] := fun hnil => by simp [hnil] at hlength
    rw [parseI64_digits hne hdigits, i64OfInt_eq_some]
  rw [parseTopicSequenceKeySuffix]
  constructor
  · intro h
    split_ifs at h with hrefused
    obtain ⟨hlength, hdigits⟩ := hchecks.1 hrefused
    refine ⟨hlength, hdigits, (hread hlength hdigits).1 ?_⟩
    split at h
    next hparsed => rw [hparsed, Except.ok.inj h]
    next => cases h
  · rintro ⟨hlength, hdigits, hvalue⟩
    rw [if_neg (hchecks.2 ⟨hlength, hdigits⟩), (hread hlength hdigits).2 hvalue]

/-- The suffix of a sequence is what is read as the sequence. -/
theorem parse_iff_suffix :
    parseTopicSequenceKeySuffix text = .ok n ↔ topicSequenceKeySuffix n = .ok text := by
  rw [parseTopicSequenceKeySuffix_eq_ok, topicSequenceKeySuffix_eq_ok]
  constructor
  · rintro ⟨hlength, hdigits, hvalue⟩
    refine ⟨value text.toList, hvalue, ?_⟩
    have hpadded := padded_value hdigits
    rw [hlength] at hpadded
    rw [TopicModel.topicSequenceKeySuffix, hpadded, String.ofList_toList]
  · rintro ⟨m, hm, rfl⟩
    have hfits := n.toInt_lt
    rw [TopicModel.topicSequenceKeySuffix, String.toList_ofList, length_padded,
      value_padded (by omega)]
    exact ⟨rfl, isDigit_padded 20 m, hm⟩

example : parseTopicSequenceKeySuffix "09223372036854775808" =
    .error (.invalidTopicEventSequenceSuffix "09223372036854775808") := by
  rfl

/-- The model of the topic reads the same suffixes as the same sequences. -/
theorem model_parse_eq_ok :
    TopicModel.parseTopicSequenceKeySuffix text = .ok m ↔
      ∃ n : Int64, n.toInt = m ∧ parseTopicSequenceKeySuffix text = .ok n := by
  simp only [parseTopicSequenceKeySuffix_eq_ok]
  have hfits : (m : Int) ≤ i64Max ↔ ∃ n : Int64, n.toInt = m := by
    rw [i64Max]
    constructor
    · intro hle
      exact ⟨Int64.ofInt m, Int64.toInt_ofInt_of_le (by omega) (by omega)⟩
    · rintro ⟨n, hn⟩
      have hlt := n.toInt_lt
      omega
  rw [TopicModel.parseTopicSequenceKeySuffix]
  constructor
  · intro h
    split_ifs at h with hrefused
    obtain rfl := Except.ok.inj h
    simp only [not_or, not_not, not_lt, Bool.not_eq_true', Bool.not_eq_false, all_eq_true] at hrefused
    obtain ⟨n, hn⟩ := hfits.1 hrefused.2.2
    exact ⟨n, hn, hrefused.1, hrefused.2.1, hn⟩
  · rintro ⟨n, hn, hlength, hdigits, hvalue⟩
    obtain rfl : value text.toList = m := Int.natCast_inj.1 (hvalue.symm.trans hn)
    rw [if_neg]
    · rfl
    · simp only [not_or, not_not, not_lt, Bool.not_eq_true', Bool.not_eq_false, all_eq_true]
      exact ⟨hlength, hdigits, hfits.2 ⟨n, hn⟩⟩

/-- Suffixes are ordered as the sequences are, and exactly they are read. -/
theorem suffixes_encode_order :
    (∀ a : Int64, 0 ≤ a → ∃ suffix, topicSequenceKeySuffix a = .ok suffix ∧
      parseTopicSequenceKeySuffix suffix = .ok a) ∧
    (∀ (a b : Int64) (suffix other : String), topicSequenceKeySuffix a = .ok suffix →
      topicSequenceKeySuffix b = .ok other → (suffix < other ↔ a < b)) ∧
    ∀ text, (∃ a, parseTopicSequenceKeySuffix text = .ok a) ↔
      ∃ a : Int64, 0 ≤ a ∧ topicSequenceKeySuffix a = .ok text := by
  refine ⟨fun a ha => ?_, fun a b suffix other hsuffix hother => ?_, fun text => ?_⟩
  · have hsuffix := topicSequenceKeySuffix_of_nonneg ha
    exact ⟨_, hsuffix, parse_iff_suffix.2 hsuffix⟩
  · obtain ⟨m, hm, rfl⟩ := topicSequenceKeySuffix_eq_ok.1 hsuffix
    obtain ⟨k, hk, rfl⟩ := topicSequenceKeySuffix_eq_ok.1 hother
    have hmfits := a.toInt_lt
    have hkfits := b.toInt_lt
    rw [TopicScans.suffix_lt (by rw [i64Max]; omega) (by rw [i64Max]; omega),
      Int64.lt_iff_toInt_lt, hm, hk, Int.ofNat_lt]
  · simp only [parse_iff_suffix]
    constructor
    · rintro ⟨a, ha⟩
      obtain ⟨m, hm, -⟩ := topicSequenceKeySuffix_eq_ok.1 ha
      refine ⟨a, ?_, ha⟩
      rw [Int64.le_iff_toInt_le, hm]
      exact Int.natCast_nonneg m
    · rintro ⟨a, -, ha⟩
      exact ⟨a, ha⟩

end Order

end Paranoid.TopicSequences
