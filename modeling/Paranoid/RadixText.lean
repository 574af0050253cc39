import Mathlib.Data.Nat.Digits.Lemmas
import Mathlib.Data.List.GetD
import Mathlib.Data.List.TakeWhile
import Paranoid.BitStaging
import Paranoid.ByteCodecs

namespace Paranoid.RadixText

open BitStaging ByteCodecs List

section Spelling

variable {base digit n m : Nat} {digits others : List Nat}

/-- So many digits of a number, those that count least. -/
def spell (base : Nat) : Nat → Nat → List Nat
  | 0, _ => []
  | length + 1, n => spell base length (n / base) ++ [n % base]

@[simp] theorem length_spell (base length n : Nat) : (spell base length n).length = length := by
  induction length generalizing n with
  | zero => rfl
  | succ length ih => rw [spell, length_append, ih, length_singleton]

theorem spell_lt (hbase : 0 < base) (length n : Nat) : ∀ digit ∈ spell base length n, digit < base := by
  induction length generalizing n with
  | zero => exact fun _ => nofun
  | succ length ih =>
      rw [spell, forall_mem_append, forall_mem_singleton]
      exact ⟨ih _, Nat.mod_lt _ hbase⟩

theorem value_spell {length : Nat} (h : n < base ^ length) : value base (spell base length n) = n := by
  induction length generalizing n with
  | zero => exact (Nat.lt_one_iff.1 h).symm
  | succ length ih =>
      have hdiv : n / base < base ^ length :=
        Nat.div_lt_of_lt_mul (by rwa [Nat.mul_comm, ← Nat.pow_succ])
      rw [spell, value_concat, ih hdiv, Nat.mul_comm, Nat.div_add_mod]

theorem spell_value (h : ∀ digit ∈ digits, digit < base) :
    spell base digits.length (value base digits) = digits := by
  rcases Nat.eq_zero_or_pos base with rfl | hbase
  · cases digits with
    | nil => rfl
    | cons digit digits => exact absurd (h digit mem_cons_self) (Nat.not_lt_zero _)
  · exact value_inj (spell_lt hbase _ _) h (length_spell _ _ _) (value_spell (value_lt h))

theorem value_append : value base (digits ++ others) =
    value base digits * base ^ others.length + value base others := by
  induction others using List.reverseRecOn with
  | nil => simp
  | append_singleton others other ih =>
      rw [← append_assoc, value_concat, ih, value_concat, length_append, length_singleton, Nat.pow_succ]
      ring

theorem spell_add (length rest n : Nat) :
    spell base (length + rest) n = spell base length (n / base ^ rest) ++ spell base rest n := by
  induction rest generalizing n with
  | zero => rw [Nat.pow_zero, Nat.div_one, spell, append_nil, Nat.add_zero]
  | succ rest ih =>
      rw [← Nat.add_assoc, spell, ih, spell, append_assoc,
        Nat.div_div_eq_div_mul, Nat.pow_succ, Nat.mul_comm base]

theorem spell_mod (length n : Nat) : spell base length (n % base ^ length) = spell base length n := by
  induction length generalizing n with
  | zero => rfl
  | succ length ih =>
      rw [spell, spell, Nat.pow_succ, Nat.mod_mul_left_mod,
        Nat.mul_comm, Nat.mod_mul_right_div_self, ih]

theorem value_cons :
    value base (digit :: digits) = digit * base ^ digits.length + value base digits := by
  have hone : value base [digit] = digit := by simp [value]
  rw [← singleton_append, value_append, hone]

/-- Numbers of as many digits are in the order of their digits. -/
theorem value_lt_iff (hdigits : ∀ digit ∈ digits, digit < base)
    (hothers : ∀ digit ∈ others, digit < base)
    (hlength : digits.length = others.length) :
    value base digits < value base others ↔ digits < others := by
  induction digits generalizing others with
  | nil =>
      obtain rfl := length_eq_zero_iff.1 hlength.symm
      exact iff_of_false (Nat.lt_irrefl _) (List.lt_irrefl [])
  | cons digit digits ih =>
      cases others with
      | nil => cases hlength
      | cons other others =>
          rw [forall_mem_cons] at hdigits hothers
          have hlength' : digits.length = others.length := Nat.succ.inj hlength
          have hleft := value_lt hdigits.2
          have hright := value_lt hothers.2
          rw [cons_lt_cons_iff, ← ih hdigits.2 hothers.2 hlength', value_cons, value_cons, hlength']
          rw [hlength'] at hleft
          generalize base ^ others.length = place at hleft hright ⊢
          rcases Nat.lt_trichotomy digit other with hlt | rfl | hlt
          · refine iff_of_true ?_ (.inl hlt)
            have hplaces := Nat.mul_le_mul_right place hlt
            rw [Nat.succ_mul] at hplaces
            omega
          · simp
          · refine iff_of_false ?_ ?_
            · have hplaces := Nat.mul_le_mul_right place hlt
              rw [Nat.succ_mul] at hplaces
              omega
            · omega

end Spelling

/-- The symbols of the digits, each one once. -/
structure Alphabet where
  symbols : Bytes
  nodup : symbols.Nodup

namespace Alphabet

variable {alphabet : Alphabet} {b : UInt8} {n : Nat} {digits : List Nat} {text : Bytes}

def symbol (alphabet : Alphabet) (n : Nat) : UInt8 := alphabet.symbols.getD n 0

def valueOf (alphabet : Alphabet) (b : UInt8) : Option Nat := alphabet.symbols.idxOf? b

def spelled (alphabet : Alphabet) (digits : List Nat) : Bytes := digits.map alphabet.symbol

def read (alphabet : Alphabet) (text : Bytes) : Option (List Nat) := text.mapM alphabet.valueOf

theorem valueOf_eq_some :
    alphabet.valueOf b = some n ↔ n < alphabet.symbols.length ∧ alphabet.symbol n = b := by
  rw [valueOf, idxOf?_eq_some_iff]
  constructor
  · rintro ⟨hlt, heq, -⟩
    exact ⟨hlt, by rw [symbol, getD_eq_getElem _ _ hlt, heq]⟩
  · rintro ⟨hlt, heq⟩
    rw [symbol, getD_eq_getElem _ _ hlt] at heq
    refine ⟨hlt, heq, fun j hj hsame => ?_⟩
    have hshort : j < alphabet.symbols.length := hj.trans hlt
    have hindex := alphabet.nodup.getElem_inj_iff.1 (hsame.trans heq.symm)
    omega

theorem valueOf_symbol (h : n < alphabet.symbols.length) :
    alphabet.valueOf (alphabet.symbol n) = some n :=
  valueOf_eq_some.2 ⟨h, rfl⟩

theorem read_eq_some : alphabet.read text = some digits ↔
    (∀ digit ∈ digits, digit < alphabet.symbols.length) ∧ text = alphabet.spelled digits := by
  induction text generalizing digits with
  | nil =>
      rw [read, mapM_nil, Option.pure_def, Option.some.injEq]
      constructor
      · rintro rfl
        exact ⟨fun _ => nofun, rfl⟩
      · rintro ⟨-, h⟩
        exact (map_eq_nil_iff.1 h.symm).symm
  | cons b text ih =>
      rw [read, mapM_cons, Option.bind_eq_bind, Option.bind_eq_some_iff]
      constructor
      · rintro ⟨digit, hdigit, h⟩
        obtain ⟨rest, hrest, h⟩ := Option.bind_eq_some_iff.1 h
        obtain rfl := Option.some.inj h
        obtain ⟨hlt, hb⟩ := valueOf_eq_some.1 hdigit
        obtain ⟨hdigits, htext⟩ := ih.1 hrest
        exact ⟨forall_mem_cons.2 ⟨hlt, hdigits⟩, by rw [spelled, map_cons, hb, htext, spelled]⟩
      · rintro ⟨hdigits, h⟩
        cases digits with
        | nil => cases h
        | cons digit digits =>
            obtain ⟨hb, htext⟩ := cons.inj h
            obtain ⟨hlt, hdigits⟩ := forall_mem_cons.1 hdigits
            have hrest := ih.2 ⟨hdigits, htext⟩
            rw [read] at hrest
            exact ⟨digit, valueOf_eq_some.2 ⟨hlt, hb.symm⟩, by rw [hrest]; rfl⟩

@[simp] theorem length_spelled (digits : List Nat) :
    (alphabet.spelled digits).length = digits.length := length_map _

end Alphabet

section Groups

variable {width : Nat} {bytes : Bytes} {digits : List Nat}

def byteValues (bytes : Bytes) : List Nat := bytes.map UInt8.toNat

def bytesOf (values : List Nat) : Bytes := values.map UInt8.ofNat

theorem byteValues_lt (bytes : Bytes) : ∀ digit ∈ byteValues bytes, digit < 256 := by
  rw [byteValues, forall_mem_map]
  exact fun b _ => b.toNat_lt

@[simp] theorem length_byteValues (bytes : Bytes) : (byteValues bytes).length = bytes.length :=
  length_map _

@[simp] theorem bytesOf_byteValues (bytes : Bytes) : bytesOf (byteValues bytes) = bytes := by
  rw [bytesOf, byteValues, map_map]
  exact map_id'' (fun b => UInt8.ofNat_toNat) bytes

theorem byteValues_bytesOf {values : List Nat} (h : ∀ value ∈ values, value < 256) :
    byteValues (bytesOf values) = values := by
  rw [bytesOf, byteValues, map_map]
  exact (map_congr_left fun value hvalue => UInt8.toNat_ofNat_of_lt' (h value hvalue)).trans (map_id _)

/-- As many groups of bits as hold so many bytes. -/
def groupCount (width byteCount : Nat) : Nat := (8 * byteCount + (width - 1)) / width

/-- The bits of the bytes in groups, the last one with zeros behind them. -/
def toGroups (width : Nat) (bytes : Bytes) : List Nat :=
  let count := groupCount width bytes.length
  spell (2 ^ width) count (value 256 (byteValues bytes) * 2 ^ (width * count - 8 * bytes.length))

/-- Bits that do not fill a byte are fewer than a group, and zeros. -/
def ofGroups (width : Nat) (digits : List Nat) : Option Bytes :=
  let spare := width * digits.length % 8
  let number := value (2 ^ width) digits
  if spare < width ∧ number % 2 ^ spare = 0 then some (bytesOf (spell 256 (width * digits.length / 8) (number / 2 ^ spare))) else none

theorem groupCount_spec (hwidth : 0 < width) (byteCount : Nat) :
    8 * byteCount ≤ width * groupCount width byteCount ∧
      width * groupCount width byteCount < 8 * byteCount + width := by
  have hdiv := Nat.div_add_mod (8 * byteCount + (width - 1)) width
  have hmod := Nat.mod_lt (8 * byteCount + (width - 1)) hwidth
  rw [groupCount]
  omega

theorem value_byteValues_lt (bytes : Bytes) :
    value 256 (byteValues bytes) < 2 ^ (8 * bytes.length) := by
  have hlt := value_lt (byteValues_lt bytes)
  rwa [length_byteValues, show (256 : Nat) = 2 ^ 8 from rfl, ← Nat.pow_mul] at hlt

theorem value_toGroups (hwidth : 0 < width) (bytes : Bytes) : value (2 ^ width) (toGroups width bytes) =
    value 256 (byteValues bytes) * 2 ^ (width * groupCount width bytes.length - 8 * bytes.length) := by
  refine value_spell ?_
  have hle := (groupCount_spec hwidth bytes.length).1
  rw [← Nat.pow_mul]
  calc _ < 2 ^ (8 * bytes.length) * 2 ^ (width * groupCount width bytes.length - 8 * bytes.length) :=
        Nat.mul_lt_mul_of_pos_right (value_byteValues_lt bytes) (Nat.two_pow_pos _)
    _ = 2 ^ (width * groupCount width bytes.length) := by rw [← Nat.pow_add, Nat.add_sub_cancel' hle]

theorem toGroups_lt (width : Nat) (bytes : Bytes) : ∀ digit ∈ toGroups width bytes, digit < 2 ^ width :=
  spell_lt (Nat.two_pow_pos width) _ _

@[simp] theorem length_toGroups (width : Nat) (bytes : Bytes) :
    (toGroups width bytes).length = groupCount width bytes.length :=
  length_spell _ _ _

theorem ofGroups_toGroups (hwidth : 0 < width) (hbyte : width ≤ 8) (bytes : Bytes) :
    ofGroups width (toGroups width bytes) = some bytes := by
  obtain ⟨hle, hlt⟩ := groupCount_spec hwidth bytes.length
  have hspare : width * groupCount width bytes.length % 8 =
    width * groupCount width bytes.length - 8 * bytes.length := by omega
  have hcount : width * groupCount width bytes.length / 8 = bytes.length := by omega
  rw [ofGroups, length_toGroups, value_toGroups hwidth, hspare, hcount]
  rw [if_pos ⟨by omega, Nat.mul_mod_left _ _⟩, Nat.mul_div_cancel _ (Nat.two_pow_pos _)]
  have hspell := spell_value (byteValues_lt bytes)
  rw [length_byteValues] at hspell
  rw [hspell, bytesOf_byteValues]

/-- What is read as bytes is how these bytes are written. -/
theorem ofGroups_eq_some {bytes : Bytes} (hwidth : 0 < width)
    (hdigits : ∀ digit ∈ digits, digit < 2 ^ width)
    (h : ofGroups width digits = some bytes) : digits = toGroups width bytes := by
  obtain ⟨⟨hspare, hzeros⟩, hbytes⟩ := Option.ite_none_right_eq_some.1 h
  obtain rfl := Option.some.inj hbytes
  have hlt := value_lt hdigits
  rw [← Nat.pow_mul] at hlt
  generalize hn : value (2 ^ width) digits = n at hzeros hlt ⊢
  have hbits := Nat.div_add_mod (width * digits.length) 8
  generalize hspareDef : width * digits.length % 8 = spare at *
  generalize width * digits.length / 8 = byteCount at *
  have hnumber : n / 2 ^ spare < 256 ^ byteCount := by
    rw [show (256 : Nat) = 2 ^ 8 from rfl, ← Nat.pow_mul]
    refine Nat.div_lt_of_lt_mul ?_
    rwa [← Nat.pow_add, Nat.add_comm, hbits]
  have hvalues := byteValues_bytesOf (spell_lt (by decide : 0 < 256) byteCount (n / 2 ^ spare))
  have hlength : (bytesOf (spell 256 byteCount (n / 2 ^ spare))).length = byteCount := by
    rw [bytesOf, length_map, length_spell]
  have hcount : groupCount width byteCount = digits.length := by
    obtain ⟨hle, hgroups⟩ := groupCount_spec hwidth byteCount
    have hupper : groupCount width byteCount < digits.length + 1 :=
      Nat.lt_of_mul_lt_mul_left (a := width) (by rw [Nat.mul_add, Nat.mul_one]; omega)
    have hlower : digits.length < groupCount width byteCount + 1 :=
      Nat.lt_of_mul_lt_mul_left (a := width) (by rw [Nat.mul_add, Nat.mul_one]; omega)
    omega
  have hspareCount : width * digits.length - 8 * byteCount = spare := by omega
  rw [toGroups, hlength, hcount, hvalues, value_spell hnumber,
    hspareCount, Nat.div_mul_cancel (Nat.dvd_of_mod_eq_zero hzeros), ← hn]
  exact (spell_value hdigits).symm

/-- Bytes in front that fill their groups are groups by themselves. -/
theorem toGroups_append (front rest : Bytes) {count : Nat}
    (hwidth : 0 < width) (hcount : width * count = 8 * front.length) :
    toGroups width (front ++ rest) =
      spell (2 ^ width) count (value 256 (byteValues front)) ++ toGroups width rest := by
  obtain ⟨hle, -⟩ := groupCount_spec hwidth rest.length
  have hgroups : groupCount width (front ++ rest).length = count + groupCount width rest.length := by
    rw [groupCount, groupCount, length_append,
      Nat.mul_add, ← hcount, Nat.add_assoc, Nat.mul_add_div hwidth]
  have hpad : width * (count + groupCount width rest.length) - 8 * (front ++ rest).length =
      width * groupCount width rest.length - 8 * rest.length := by
    rw [length_append, Nat.mul_add, Nat.mul_add, hcount, Nat.add_sub_add_left]
  have hplaces : (256 : Nat) ^ (byteValues rest).length *
    2 ^ (width * groupCount width rest.length - 8 * rest.length) =
      (2 ^ width) ^ groupCount width rest.length := by
    rw [length_byteValues,
      show (256 : Nat) = 2 ^ 8 from rfl, ← Nat.pow_mul, ← Nat.pow_mul, ← Nat.pow_add,
      Nat.add_sub_cancel' hle]
  have hlow : value 256 (byteValues rest) *
    2 ^ (width * groupCount width rest.length - 8 * rest.length) <
      (2 ^ width) ^ groupCount width rest.length := by
    rw [← hplaces]
    exact Nat.mul_lt_mul_of_pos_right (value_lt (byteValues_lt rest)) (Nat.two_pow_pos _)
  have hbytes : byteValues (front ++ rest) = byteValues front ++ byteValues rest := map_append
  rw [toGroups, toGroups, hgroups, hpad, hbytes, value_append,
    Nat.add_mul, Nat.mul_assoc, hplaces, spell_add,
    Nat.mul_comm (value 256 (byteValues front)),
      Nat.mul_add_div (Nat.pow_pos (Nat.two_pow_pos _)), Nat.div_eq_of_lt hlow, Nat.add_zero,
    ← spell_mod (groupCount width rest.length), Nat.mul_add_mod, Nat.mod_eq_of_lt hlow]

end Groups

section Numerals

variable {base other : Nat} {digits rest : List Nat}

/-- The digits of a number with none in front of the first that counts. -/
def numeral (base n : Nat) : List Nat := (Nat.digits base n).reverse

/-- Zeros in front stay what they are, and what follows is spelled in another base. -/
def convert (base other : Nat) (digits : List Nat) : List Nat :=
  replicate (digits.takeWhile (· = 0)).length 0 ++ numeral other (value base (digits.dropWhile (· = 0)))

/-- The first digit counts. -/
def Leading (digits : List Nat) : Prop := ∀ digit ∈ digits.head?, digit ≠ 0

theorem value_eq_ofDigits (base : Nat) (digits : List Nat) :
    value base digits = Nat.ofDigits base digits.reverse := by
  induction digits using List.reverseRecOn with
  | nil => rfl
  | append_singleton digits digit ih =>
      rw [value_concat, ih, reverse_append, reverse_singleton, singleton_append, Nat.ofDigits_cons]
      ring

theorem value_numeral (base n : Nat) : value base (numeral base n) = n := by
  rw [numeral, value_eq_ofDigits, reverse_reverse, Nat.ofDigits_digits]

theorem numeral_value (hbase : 1 < base)
    (hdigits : ∀ digit ∈ digits, digit < base) (hleading : Leading digits) :
    numeral base (value base digits) = digits := by
  rw [numeral, value_eq_ofDigits, Nat.digits_ofDigits base hbase, reverse_reverse]
  · exact fun digit hdigit => hdigits digit (mem_reverse.1 hdigit)
  · intro hne
    rw [getLast_reverse]
    exact hleading _ (head_mem_head? _)

theorem leading_numeral (base n : Nat) : Leading (numeral base n) := by
  intro digit hdigit
  rcases Nat.eq_zero_or_pos n with rfl | hn
  · rw [numeral, Nat.digits_zero] at hdigit
    cases hdigit
  · have hne : Nat.digits base n ≠ [] := Nat.digits_ne_nil_iff_ne_zero.2 (Nat.ne_of_gt hn)
    rw [numeral, head?_reverse, getLast?_eq_some_getLast hne, Option.mem_some_iff] at hdigit
    rw [← hdigit]
    exact Nat.getLast_digit_ne_zero base (Nat.ne_of_gt hn)

theorem numeral_lt (hbase : 1 < base) (n : Nat) : ∀ digit ∈ numeral base n, digit < base :=
  fun _ hdigit => Nat.digits_lt_base hbase (mem_reverse.1 hdigit)

theorem exists_zeros (digits : List Nat) :
    ∃ zeros rest, digits = replicate zeros 0 ++ rest ∧ Leading rest := by
  refine ⟨(digits.takeWhile (· = 0)).length, digits.dropWhile (· = 0), ?_, ?_⟩
  · have hzeros : digits.takeWhile (· = 0) = replicate (digits.takeWhile (· = 0)).length 0 :=
      eq_replicate_iff.2
        ⟨rfl, fun digit hdigit => of_decide_eq_true (mem_takeWhile_imp (p := (· = 0)) hdigit)⟩
    rw [← hzeros, takeWhile_append_dropWhile]
  · intro digit hdigit
    have hnot := head?_dropWhile_not (· = 0) digits
    rw [Option.mem_def.1 hdigit] at hnot
    simpa using hnot

theorem convert_zeros_append (hleading : Leading rest) (zeros : Nat) :
    convert base other (replicate zeros 0 ++ rest) =
      replicate zeros 0 ++ numeral other (value base rest) := by
  have hall : ∀ digit ∈ replicate zeros 0, decide (digit = 0) = true :=
    fun _ h => decide_eq_true (eq_of_mem_replicate h)
  have htake : rest.takeWhile (· = 0) = [] := by
    cases rest with
    | nil => rfl
    | cons digit rest => exact takeWhile_cons_of_neg (by simpa using hleading digit rfl)
  have hdrop : rest.dropWhile (· = 0) = rest := by
    cases rest with
    | nil => rfl
    | cons digit rest => exact dropWhile_cons_of_neg (by simpa using hleading digit rfl)
  rw [convert, takeWhile_append_of_pos hall, dropWhile_append_of_pos hall,
    htake, hdrop, append_nil, length_replicate]

theorem convert_convert (hbase : 1 < base) (hdigits : ∀ digit ∈ digits, digit < base) :
    convert other base (convert base other digits) = digits := by
  obtain ⟨zeros, rest, rfl, hleading⟩ := exists_zeros digits
  rw [forall_mem_append] at hdigits
  rw [convert_zeros_append hleading, convert_zeros_append (leading_numeral _ _),
    value_numeral, numeral_value hbase hdigits.2 hleading]

theorem convert_lt (hother : 1 < other) (digits : List Nat) :
    ∀ digit ∈ convert base other digits, digit < other := by
  rw [convert, forall_mem_append]
  refine ⟨fun digit hdigit => ?_, numeral_lt hother _⟩
  rw [eq_of_mem_replicate hdigit]
  omega

/-- Where so many digits of the one base count for no more than so many of the other, they are not more of them. -/
theorem length_numeral_lt {p q : Nat} (hother : 1 < other) (hq : 0 < q) (hpower : base ^ q ≤ other ^ p)
    (hdigits : ∀ digit ∈ digits, digit < base) :
    q * (numeral other (value base digits)).length < p * digits.length + q := by
  have hlt := value_lt hdigits
  generalize value base digits = n at hlt ⊢
  rw [numeral, length_reverse]
  rcases Nat.eq_zero_or_pos n with rfl | hn
  · rw [Nat.digits_zero, length_nil]
    omega
  · obtain ⟨fewer, hfewer⟩ : ∃ fewer, (Nat.digits other n).length = fewer + 1 :=
      Nat.exists_eq_succ_of_ne_zero fun h =>
        (Nat.digits_ne_nil_iff_ne_zero.2 (Nat.ne_of_gt hn)) (length_eq_zero_iff.1 h)
    have hle := Nat.base_pow_length_digits_le other n hother (Nat.ne_of_gt hn)
    rw [hfewer, Nat.pow_succ, Nat.mul_comm] at hle
    have hplaces : other ^ (fewer * q) < other ^ (p * digits.length) := by
      calc other ^ (fewer * q) = (other ^ fewer) ^ q := Nat.pow_mul _ _ _
        _ ≤ n ^ q := Nat.pow_le_pow_left (Nat.le_of_mul_le_mul_left hle (by omega)) q
        _ < (base ^ digits.length) ^ q := Nat.pow_lt_pow_left hlt (Nat.ne_of_gt hq)
        _ = (base ^ q) ^ digits.length := by rw [← Nat.pow_mul, ← Nat.pow_mul, Nat.mul_comm]
        _ ≤ (other ^ p) ^ digits.length := Nat.pow_le_pow_left hpower _
        _ = other ^ (p * digits.length) := (Nat.pow_mul _ _ _).symm
    have hfew := (Nat.pow_lt_pow_iff_right hother).1 hplaces
    rw [hfewer, Nat.mul_add, Nat.mul_one, Nat.mul_comm q]
    omega

theorem length_convert_lt {p q : Nat} (hother : 1 < other)
    (hq : 0 < q) (hle : q ≤ p) (hpower : base ^ q ≤ other ^ p)
    (hdigits : ∀ digit ∈ digits, digit < base) :
    q * (convert base other digits).length < p * digits.length + q := by
  obtain ⟨zeros, rest, rfl, hleading⟩ := exists_zeros digits
  rw [forall_mem_append] at hdigits
  have hrest := length_numeral_lt hother hq hpower hdigits.2
  have hzeros := Nat.mul_le_mul_right zeros hle
  rw [convert_zeros_append hleading, length_append,
    length_append, length_replicate, Nat.mul_add, Nat.mul_add]
  omega

end Numerals

end Paranoid.RadixText
