import Mathlib.Data.List.Basic
import Paranoid.ByteCodecs

namespace Paranoid.ByteaText

open ByteCodecs

section Texts

def hexValue (digit : UInt8) : Option Nat :=
  if 48 ≤ digit && digit ≤ 57 then some (digit.toNat - 48)
  else if 97 ≤ digit && digit ≤ 102 then some (digit.toNat - 87)
  else if 65 ≤ digit && digit ≤ 70 then some (digit.toNat - 55)
  else none

/-- Pairs of digits, each with the byte it stands for. -/
inductive HexText : Bytes → Bytes → Prop
  | empty : HexText [] []
  | pair {a b : UInt8} {i j : Nat} {digits bytes : Bytes} (ha : hexValue a = some i) (hb : hexValue b = some j)
      (h : HexText digits bytes) : HexText (a :: b :: digits) (.ofNat (16 * i + j) :: bytes)

/-- A byte of a text in the escape format is itself, or a backslash has it: doubled for
the backslash, or with three octal digits. -/
inductive EscapeText : Bytes → Bytes → Prop
  | empty : EscapeText [] []
  | plain {b : UInt8} {text bytes : Bytes} (hb : b ≠ 92) (h : EscapeText text bytes) : EscapeText (b :: text) (b :: bytes)
  | backslash {text bytes : Bytes} (h : EscapeText text bytes) : EscapeText (92 :: 92 :: text) (92 :: bytes)
  | octal {i j k : Nat} {text bytes : Bytes} (hi : i < 4) (hj : j < 8) (hk : k < 8) (h : EscapeText text bytes) :
      EscapeText (92 :: .ofNat (48 + i) :: .ofNat (48 + j) :: .ofNat (48 + k) :: text)
        (.ofNat (64 * i + 8 * j + k) :: bytes)

/-- The texts of a `bytea` in either format. -/
inductive Denotes : Bytes → Bytes → Prop
  | hex {digits bytes : Bytes} (h : HexText digits bytes) : Denotes (92 :: 120 :: digits) bytes
  | escape {text bytes : Bytes} (h : EscapeText text bytes) : Denotes text bytes

def hexDigit (n : Nat) : UInt8 := if n < 10 then .ofNat (48 + n) else .ofNat (87 + n)

/-- `bytea_output = 'hex'` -/
def hexOutput (bytes : Bytes) : Bytes :=
  92 :: 120 :: bytes.flatMap fun b => [hexDigit (b.toNat / 16), hexDigit (b.toNat % 16)]

def escapeByte (b : UInt8) : Bytes :=
  if b = 92 then [92, 92]
  else if b < 32 || 126 < b then
    [92, .ofNat (48 + b.toNat / 64), .ofNat (48 + b.toNat / 8 % 8), .ofNat (48 + b.toNat % 8)]
  else [b]

/-- `bytea_output = 'escape'` -/
def escapeOutput (bytes : Bytes) : Bytes := bytes.flatMap escapeByte

end Texts

section Decoder

inductive Fault
  | refused (reason : String)
  | panic
  deriving DecidableEq

inductive PgValueFormat
  | text
  | binary
  deriving DecidableEq

/-- The decoder of `Vec<u8>` that the driver has: binary values as they are, and pairs of
hexadecimal digits behind `\x`. -/
structure VecDecoder where
  decode : PgValueFormat → Bytes → Except String Bytes
  binary : ∀ bytes, decode .binary bytes = .ok bytes
  empty : decode .text [92, 120] = .ok []
  pair : ∀ a b i j digits bytes, hexValue a = some i → hexValue b = some j →
    decode .text (92 :: 120 :: digits) = .ok bytes →
      decode .text (92 :: 120 :: a :: b :: digits) = .ok (.ofNat (16 * i + j) :: bytes)
  oddLength : ∀ digits : Bytes, digits.length % 2 = 1 →
    ∃ e, decode .text (92 :: 120 :: digits) = .error e
  invalidCharacter : ∀ digits : Bytes, (∃ d ∈ digits, hexValue d = none) →
    ∃ e, decode .text (92 :: 120 :: digits) = .error e

/-- An index out of range panics. -/
def index (bytes : Bytes) (i : Nat) : Except Fault UInt8 :=
  match bytes[i]? with
  | some b => .ok b
  | none => .error .panic

def sub (a b : UInt8) : Except Fault UInt8 := if b ≤ a then .ok (a - b) else .error .panic

def get (bytes : Bytes) (start stop : Nat) : Option Bytes :=
  if stop ≤ bytes.length then some (slice bytes start stop) else none

def octalByte (digits : Bytes) : Except Fault UInt8 := do
  let first ← index digits 0
  if !(48 ≤ first && first ≤ 51) || !(digits.drop 1).all (fun digit => 48 ≤ digit && digit ≤ 55) then
    .error (.refused "invalid bytea octal escape")
  else do
    let high ← sub first 48
    let middle ← sub (← index digits 1) 48
    let low ← sub (← index digits 2) 48
    return high <<< 6 ||| middle <<< 3 ||| low

def decodeEscapeFrom (input : Bytes) (index : Nat) (output : Bytes) : Except Fault Bytes :=
  if h : index < input.length then
    if input[index] ≠ 92 then decodeEscapeFrom input (index + 1) (output ++ [input[index]])
    else if input[index + 1]? = some 92 then decodeEscapeFrom input (index + 2) (output ++ [92])
    else
      match get input (index + 1) (index + 4) with
      | none => .error (.refused "incomplete bytea escape")
      | some digits =>
          match octalByte digits with
          | .error e => .error e
          | .ok byte => decodeEscapeFrom input (index + 4) (output ++ [byte])
  else .ok output
termination_by input.length - index

def decodeEscapeBytes (input : Bytes) : Except Fault Bytes := decodeEscapeFrom input 0 []

/-- A `NULL` has no bytes. -/
def decode (vec : VecDecoder) (format : PgValueFormat) (value : Option Bytes) : Except Fault Bytes :=
  match value with
  | none => .error (.refused "unexpected null; try decoding as an `Option`")
  | some bytes =>
      if format = .binary || [92, 120].isPrefixOf bytes then (vec.decode format bytes).mapError .refused
      else decodeEscapeBytes bytes

end Decoder

section Octal

theorem octalByte_digits : ∀ i < 4, ∀ j < 8, ∀ k < 8,
    octalByte [.ofNat (48 + i), .ofNat (48 + j),
      .ofNat (48 + k)] = .ok (.ofNat (64 * i + 8 * j + k)) := by
  decide +kernel

theorem ofNat_ne_backslash : ∀ i < 4, UInt8.ofNat (48 + i) ≠ 92 := by decide

theorem digit_of_range {digit : UInt8} {n : Nat} (hlow : 48 ≤ digit) (hhigh : digit.toNat < 48 + n) :
    ∃ i < n, digit = .ofNat (48 + i) := by
  have hnat : 48 ≤ digit.toNat := UInt8.le_iff_toNat_le.1 hlow
  refine ⟨digit.toNat - 48, by omega, ?_⟩
  rw [Nat.add_sub_cancel' hnat, UInt8.ofNat_toNat]

theorem octalByte_refuses {x y z : UInt8}
    (h : ¬((48 ≤ x ∧ x ≤ 51) ∧ (48 ≤ y ∧ y ≤ 55) ∧ 48 ≤ z ∧ z ≤ 55)) :
    octalByte [x, y, z] = .error (.refused "invalid bytea octal escape") := by
  have hcheck : (!(48 ≤ x && x ≤ 51) ||
    !([x, y, z].drop 1).all fun digit => 48 ≤ digit && digit ≤ 55) = true := by
    by_contra hnot
    apply h
    simpa using hnot
  change (if (!(48 ≤ x && x ≤ 51) || !([x, y, z].drop 1).all fun digit =>
    48 ≤ digit && digit ≤ 55) = true then _ else _) = _
  rw [if_pos hcheck]

theorem octalByte_cases (x y z : UInt8) : (∃ i < 4, ∃ j < 8, ∃ k < 8,
    x = .ofNat (48 + i) ∧ y = .ofNat (48 + j) ∧ z = .ofNat (48 + k)) ∨
      octalByte [x, y, z] = .error (.refused "invalid bytea octal escape") := by
  by_cases h : (48 ≤ x ∧ x ≤ 51) ∧ (48 ≤ y ∧ y ≤ 55) ∧ 48 ≤ z ∧ z ≤ 55
  · obtain ⟨⟨hx, hx'⟩, ⟨hy, hy'⟩, hz, hz'⟩ := h
    obtain ⟨i, hi, hxi⟩ := digit_of_range (n := 4) hx (Nat.lt_succ_of_le (UInt8.le_iff_toNat_le.1 hx'))
    obtain ⟨j, hj, hyj⟩ := digit_of_range (n := 8) hy (Nat.lt_succ_of_le (UInt8.le_iff_toNat_le.1 hy'))
    obtain ⟨k, hk, hzk⟩ := digit_of_range (n := 8) hz (Nat.lt_succ_of_le (UInt8.le_iff_toNat_le.1 hz'))
    exact .inl ⟨i, hi, j, hj, k, hk, hxi, hyj, hzk⟩
  · exact .inr (octalByte_refuses h)

end Octal

section Escape

theorem escapeText_plain {b : UInt8} (hb : b ≠ 92) {text bytes : Bytes} :
    EscapeText (b :: text) bytes ↔ ∃ rest, bytes = b :: rest ∧ EscapeText text rest := by
  constructor
  · intro h
    cases h with
    | plain _ h => exact ⟨_, rfl, h⟩
    | backslash h => exact absurd rfl hb
    | octal hi hj hk h => exact absurd rfl hb
  · rintro ⟨rest, rfl, h⟩
    exact .plain hb h

theorem escapeText_backslash {text bytes : Bytes} :
    EscapeText (92 :: 92 :: text) bytes ↔ ∃ rest, bytes = 92 :: rest ∧ EscapeText text rest := by
  constructor
  · intro h
    generalize hall : 92 :: 92 :: text = all at h
    cases h with
    | empty => cases hall
    | plain hb h => exact absurd (List.cons.inj hall).1.symm hb
    | backslash h =>
        cases hall
        exact ⟨_, rfl, h⟩
    | octal hi hj hk h =>
        exact absurd (List.cons.inj (List.cons.inj hall).2).1.symm (ofNat_ne_backslash _ hi)
  · rintro ⟨rest, rfl, h⟩
    exact .backslash h

theorem escapeText_octal {x y z : UInt8} (hx : x ≠ 92) {text bytes : Bytes} :
    EscapeText (92 :: x :: y :: z :: text) bytes ↔
    ∃ byte rest, octalByte [x, y, z] = .ok byte ∧ bytes = byte :: rest ∧ EscapeText text rest := by
  constructor
  · intro h
    generalize hall : 92 :: x :: y :: z :: text = all at h
    cases h with
    | empty => cases hall
    | plain hb h => exact absurd (List.cons.inj hall).1.symm hb
    | backslash h => exact absurd (List.cons.inj (List.cons.inj hall).2).1 hx
    | octal hi hj hk h =>
        cases hall
        exact ⟨_, _, octalByte_digits _ hi _ hj _ hk, rfl, h⟩
  · rintro ⟨byte, rest, hbyte, rfl, h⟩
    rcases octalByte_cases x y z with ⟨i, hi, j, hj, k, hk, rfl, rfl, rfl⟩ | hrefused
    · rw [octalByte_digits i hi j hj k hk] at hbyte
      obtain rfl := Except.ok.inj hbyte
      exact .octal hi hj hk h
    · rw [hrefused] at hbyte
      cases hbyte

theorem not_escapeText_short {tail bytes : Bytes}
    (hhead : tail.head? ≠ some 92) (hshort : tail.length < 3) :
    ¬EscapeText (92 :: tail) bytes := by
  intro h
  cases h with
  | plain hb h => exact hb rfl
  | backslash h => exact hhead rfl
  | octal hi hj hk h =>
      simp only [List.length_cons] at hshort
      omega

theorem drop_of_backslash {input : Bytes} {i : Nat} (h : i < input.length) (hb : ¬input[i] ≠ 92) :
    input.drop i = 92 :: input.drop (i + 1) := by
  rw [List.drop_eq_getElem_cons h, not_not.1 hb]

/-- What `get` reads behind a backslash. -/
theorem get_cases (input : Bytes) (i : Nat) :
    (get input (i + 1) (i + 4) = none ∧ (input.drop (i + 1)).length < 3) ∨
    ∃ x y z, get input (i + 1) (i + 4) = some [x, y, z] ∧
      input.drop (i + 1) = x :: y :: z :: input.drop (i + 4) := by
  unfold get
  by_cases h : i + 4 ≤ input.length
  · have hx : i + 1 < input.length := by omega
    have hy : i + 2 < input.length := by omega
    have hz : i + 3 < input.length := by omega
    have hdrop : input.drop (i + 1) =
      input[i + 1] :: input[i + 2] :: input[i + 3] :: input.drop (i + 4) := by
      rw [List.drop_eq_getElem_cons hx, List.drop_eq_getElem_cons hy, List.drop_eq_getElem_cons hz]
    refine .inr ⟨input[i + 1], input[i + 2], input[i + 3], ?_, hdrop⟩
    rw [if_pos h, slice, hdrop, show i + 4 - (i + 1) = 3 by omega]
    rfl
  · refine .inl ⟨if_neg h, ?_⟩
    rw [List.length_drop]
    omega

theorem digits_of_get {input digits : Bytes} {i : Nat} (hnext : input[i + 1]? ≠ some 92)
    (hdigits : get input (i + 1) (i + 4) = some digits) :
    ∃ x y z, x ≠ 92 ∧ digits = [x, y, z] ∧ input.drop (i + 1) = x :: y :: z :: input.drop (i + 4) := by
  rcases get_cases input i with ⟨hnone, -⟩ | ⟨x, y, z, hget, hdrop⟩
  · rw [hnone] at hdigits
    cases hdigits
  · refine ⟨x, y, z, ?_, Option.some.inj (hdigits.symm.trans hget), hdrop⟩
    rintro rfl
    exact hnext (by rw [← List.head?_drop, hdrop]; rfl)

theorem decodeEscapeFrom_eq_ok {input output out : Bytes} {i : Nat} :
    decodeEscapeFrom input i output = .ok out ↔
    ∃ bytes, EscapeText (input.drop i) bytes ∧ out = output ++ bytes := by
  fun_induction decodeEscapeFrom input i output with
  | case1 i output h hplain ih =>
      rw [ih, List.drop_eq_getElem_cons h]
      constructor
      · rintro ⟨bytes, htext, rfl⟩
        exact ⟨_, .plain hplain htext, by rw [List.append_assoc]; rfl⟩
      · rintro ⟨bytes, htext, rfl⟩
        obtain ⟨rest, rfl, hrest⟩ := (escapeText_plain hplain).1 htext
        exact ⟨rest, hrest, by rw [List.append_assoc]; rfl⟩
  | case2 i output h hplain hnext ih =>
      have hdrop : input.drop i = 92 :: 92 :: input.drop (i + 2) := by
        obtain ⟨hlt, heq⟩ := List.getElem?_eq_some_iff.1 hnext
        rw [drop_of_backslash h hplain, List.drop_eq_getElem_cons hlt, heq]
      rw [ih, hdrop]
      constructor
      · rintro ⟨bytes, htext, rfl⟩
        exact ⟨_, .backslash htext, by rw [List.append_assoc]; rfl⟩
      · rintro ⟨bytes, htext, rfl⟩
        obtain ⟨rest, rfl, hrest⟩ := escapeText_backslash.1 htext
        exact ⟨rest, hrest, by rw [List.append_assoc]; rfl⟩
  | case3 i output h hplain hnext hnone =>
      have hhead : (input.drop (i + 1)).head? ≠ some 92 := by rwa [List.head?_drop]
      rcases get_cases input i with ⟨-, hshort⟩ | ⟨x, y, z, hget, -⟩
      · rw [drop_of_backslash h hplain]
        exact ⟨nofun, fun ⟨bytes, htext, _⟩ => absurd htext (not_escapeText_short hhead hshort)⟩
      · rw [hget] at hnone
        cases hnone
  | case4 i output h hplain hnext digits hdigits e he =>
      obtain ⟨x, y, z, hx, rfl, hdrop⟩ := digits_of_get hnext hdigits
      rw [drop_of_backslash h hplain, hdrop]
      refine ⟨nofun, fun ⟨bytes, htext, _⟩ => ?_⟩
      obtain ⟨byte, rest, hbyte, -, -⟩ := (escapeText_octal hx).1 htext
      rw [he] at hbyte
      cases hbyte
  | case5 i output h hplain hnext digits hdigits byte hbyte ih =>
      obtain ⟨x, y, z, hx, rfl, hdrop⟩ := digits_of_get hnext hdigits
      rw [ih, drop_of_backslash h hplain, hdrop]
      constructor
      · rintro ⟨bytes, htext, rfl⟩
        exact ⟨_, (escapeText_octal hx).2 ⟨byte, bytes, hbyte, rfl, htext⟩,
          by rw [List.append_assoc]; rfl⟩
      · rintro ⟨bytes, htext, rfl⟩
        obtain ⟨byte', rest, hbyte', rfl, hrest⟩ := (escapeText_octal hx).1 htext
        obtain rfl := Except.ok.inj (hbyte.symm.trans hbyte')
        exact ⟨rest, hrest, by rw [List.append_assoc]; rfl⟩
  | case6 i output h =>
      rw [List.drop_eq_nil_of_le (by omega)]
      constructor
      · intro hout
        exact ⟨[], .empty, by rw [← Except.ok.inj hout, List.append_nil]⟩
      · rintro ⟨bytes, htext, rfl⟩
        cases htext
        rw [List.append_nil]

theorem decodeEscapeFrom_no_panic (input output : Bytes) (i : Nat) :
    decodeEscapeFrom input i output ≠ .error .panic := by
  fun_induction decodeEscapeFrom input i output with
  | case1 i output h hplain ih => exact ih
  | case2 i output h hplain hnext ih => exact ih
  | case3 i output h hplain hnext hnone => exact nofun
  | case4 i output h hplain hnext digits hdigits e he =>
      rcases get_cases input i with ⟨hnone, -⟩ | ⟨x, y, z, hget, -⟩
      · rw [hnone] at hdigits
        cases hdigits
      · obtain rfl := Option.some.inj (hget.symm.trans hdigits)
        rcases octalByte_cases x y z with ⟨i, hi, j, hj, k, hk, rfl, rfl, rfl⟩ | hrefused
        · rw [octalByte_digits i hi j hj k hk] at he
          cases he
        · rw [← Except.error.inj (hrefused.symm.trans he)]
          exact nofun
  | case5 i output h hplain hnext digits hdigits byte hbyte ih => exact ih
  | case6 i output h => exact nofun

theorem decodeEscapeBytes_eq_ok {text bytes : Bytes} :
    decodeEscapeBytes text = .ok bytes ↔ EscapeText text bytes := by
  rw [decodeEscapeBytes, decodeEscapeFrom_eq_ok, List.drop_zero]
  constructor
  · rintro ⟨_, h, rfl⟩
    exact h
  · exact fun h => ⟨bytes, h, rfl⟩

end Escape

section Hex

theorem hexText_or : ∀ digits : Bytes, (∃ bytes, HexText digits bytes) ∨
    digits.length % 2 = 1 ∨ ∃ d ∈ digits, hexValue d = none
  | [] => .inl ⟨[], .empty⟩
  | [_] => .inr (.inl rfl)
  | a :: b :: digits => by
      cases ha : hexValue a with
      | none => exact .inr (.inr ⟨a, List.mem_cons_self, ha⟩)
      | some i =>
          cases hb : hexValue b with
          | none => exact .inr (.inr ⟨b, List.mem_cons_of_mem _ List.mem_cons_self, hb⟩)
          | some j =>
              rcases hexText_or digits with ⟨bytes, h⟩ | hodd | ⟨d, hd, hnone⟩
              · exact .inl ⟨_, .pair ha hb h⟩
              · rw [List.length_cons, List.length_cons, Nat.add_assoc, Nat.add_mod_right]
                exact .inr (.inl hodd)
              · exact .inr (.inr ⟨d, List.mem_cons_of_mem _ (List.mem_cons_of_mem _ hd), hnone⟩)

variable (vec : VecDecoder)

theorem decode_of_hexText {digits bytes : Bytes} (h : HexText digits bytes) :
    vec.decode .text (92 :: 120 :: digits) = .ok bytes := by
  induction h with
  | empty => exact vec.empty
  | pair ha hb _ ih => exact vec.pair _ _ _ _ _ _ ha hb ih

theorem decode_hex_eq_ok {digits bytes : Bytes} :
    vec.decode .text (92 :: 120 :: digits) = .ok bytes ↔ HexText digits bytes := by
  refine ⟨fun h => ?_, decode_of_hexText vec⟩
  rcases hexText_or digits with ⟨other, hother⟩ | hodd | hinvalid
  · rw [decode_of_hexText vec hother] at h
    rwa [← Except.ok.inj h]
  · obtain ⟨e, he⟩ := vec.oddLength digits hodd
    rw [he] at h
    cases h
  · obtain ⟨e, he⟩ := vec.invalidCharacter digits hinvalid
    rw [he] at h
    cases h

end Hex

section Outputs

theorem hexValue_hexDigit : ∀ n < 16, hexValue (hexDigit n) = some n := by decide

theorem hexText_hexOutput (bytes : Bytes) :
    HexText (bytes.flatMap fun b => [hexDigit (b.toNat / 16), hexDigit (b.toNat % 16)]) bytes := by
  induction bytes with
  | nil => exact .empty
  | cons b bytes ih =>
      have hlow : b.toNat % 16 < 16 := Nat.mod_lt _ (by decide)
      have hhigh : b.toNat / 16 < 16 := by
        have hlt := b.toNat_lt
        omega
      have h := HexText.pair (hexValue_hexDigit _ hhigh) (hexValue_hexDigit _ hlow) ih
      rw [Nat.div_add_mod, UInt8.ofNat_toNat] at h
      exact h

/-- The output of a byte reads back as the byte. -/
theorem escapeText_escapeByte (b : UInt8) {text bytes : Bytes} (h : EscapeText text bytes) :
    EscapeText (escapeByte b ++ text) (b :: bytes) := by
  unfold escapeByte
  split
  · rename_i hb
    subst hb
    exact .backslash h
  · rename_i hb
    split
    · have hlt := b.toNat_lt
      have hoctal := EscapeText.octal
        (show b.toNat / 64 < 4 by omega) (show b.toNat / 8 % 8 < 8 by omega)
        (show b.toNat % 8 < 8 by omega) h
      rw [show 64 * (b.toNat / 64) + 8 * (b.toNat / 8 % 8) + b.toNat % 8 =
        b.toNat by omega, UInt8.ofNat_toNat] at hoctal
      exact hoctal
    · exact .plain hb h

theorem escapeText_escapeOutput (bytes : Bytes) : EscapeText (escapeOutput bytes) bytes := by
  induction bytes with
  | nil => exact .empty
  | cons b bytes ih => exact escapeText_escapeByte b ih

/-- A backslash that begins a text in the escape format is never followed by an `x`. -/
theorem not_hexPrefix_of_escapeText {text bytes : Bytes} (h : EscapeText text bytes) :
    ¬[92, 120] <+: text := by
  rintro ⟨rest, rfl⟩
  generalize hall : [92, 120] ++ rest = all at h
  cases h with
  | empty => cases hall
  | plain hb h => exact hb (List.cons.inj hall).1.symm
  | backslash h => cases hall
  | octal hi hj hk h =>
      have hdigit : ∀ i < 4, (120 : UInt8) ≠ .ofNat (48 + i) := by decide
      exact hdigit _ hi (List.cons.inj (List.cons.inj hall).2).1

end Outputs

section Decoding

/-- What is exact about the decoding of text values. -/
structure Exact (decode : Bytes → Except Fault Bytes) : Prop where
  escapeOutput : ∀ bytes, decode (escapeOutput bytes) = .ok bytes
  hexOutput : ∀ bytes, decode (hexOutput bytes) = .ok bytes
  hexPrefix : ∀ bytes, ¬[92, 120] <+: ByteaText.escapeOutput bytes
  accepts : ∀ text bytes, decode text = .ok bytes ↔ Denotes text bytes
  refuses : ∀ text, (∀ bytes, ¬Denotes text bytes) → ∃ reason, decode text = .error (.refused reason)

variable (vec : VecDecoder)

theorem decode_eq_ok {text bytes : Bytes} :
    decode vec .text (some text) = .ok bytes ↔ Denotes text bytes := by
  rw [decode]
  by_cases hprefix : [92, 120] <+: text
  · obtain ⟨digits, rfl⟩ := hprefix
    rw [if_pos (by simp)]
    constructor
    · intro h
      cases hvec : vec.decode .text ([92, 120] ++ digits) with
      | error e =>
          rw [hvec] at h
          cases h
      | ok out =>
          rw [hvec] at h
          obtain rfl := Except.ok.inj h
          exact .hex ((decode_hex_eq_ok vec).1 hvec)
    · intro h
      generalize hall : [92, 120] ++ digits = all at h ⊢
      cases h with
      | hex h => rw [(decode_hex_eq_ok vec).2 h]; rfl
      | escape h => exact absurd ⟨digits, hall⟩ (not_hexPrefix_of_escapeText h)
  · rw [if_neg (by simpa using hprefix), decodeEscapeBytes_eq_ok]
    refine ⟨.escape, fun h => ?_⟩
    cases h with
    | hex h => exact absurd ⟨_, rfl⟩ hprefix
    | escape h => exact h

theorem decode_no_panic (text : Bytes) : decode vec .text (some text) ≠ .error .panic := by
  rw [decode]
  split
  · cases vec.decode .text text <;> exact nofun
  · exact decodeEscapeFrom_no_panic text [] 0

theorem decode_text_exact (vec : VecDecoder) : Exact fun text => decode vec .text (some text) where
  escapeOutput bytes := (decode_eq_ok vec).2 (.escape (escapeText_escapeOutput bytes))
  hexOutput bytes := (decode_eq_ok vec).2 (.hex (hexText_hexOutput bytes))
  hexPrefix bytes := not_hexPrefix_of_escapeText (escapeText_escapeOutput bytes)
  accepts _ _ := decode_eq_ok vec
  refuses text hnot := by
    have hpanic := decode_no_panic vec text
    cases h : decode vec .text (some text) with
    | ok bytes => exact absurd ((decode_eq_ok vec).1 h) (hnot bytes)
    | error fault =>
        cases fault with
        | refused reason => exact ⟨reason, rfl⟩
        | panic => exact absurd h hpanic

def hexPairs : Bytes → Except String Bytes
  | [] => .ok []
  | [_] => .error "Odd number of digits"
  | a :: b :: digits =>
      match hexValue a, hexValue b with
      | some i, some j => (hexPairs digits).map (.ofNat (16 * i + j) :: ·)
      | _, _ => .error "Invalid character"

def hexDecode (digits : Bytes) : Except String Bytes :=
  if digits.length % 2 = 1 then .error "Odd number of digits" else hexPairs digits

def vecDecode (format : PgValueFormat) (bytes : Bytes) : Except String Bytes :=
  match format, bytes with
  | .binary, bytes => .ok bytes
  | .text, 92 :: 120 :: digits => hexDecode digits
  | .text, _ => .error "text does not start with \\x"

theorem hexPairs_invalid :
    ∀ {digits : Bytes}, (∃ d ∈ digits, hexValue d = none) → ∃ e, hexPairs digits = .error e
  | [], h => by
      obtain ⟨d, hd, -⟩ := h
      cases hd
  | [_], _ => ⟨_, rfl⟩
  | a :: b :: digits, ⟨d, hd, hnone⟩ => by
      rw [hexPairs]
      split
      · rename_i i j ha hb
        rcases List.mem_cons.1 hd with rfl | hd
        · rw [ha] at hnone
          cases hnone
        · rcases List.mem_cons.1 hd with rfl | hd
          · rw [hb] at hnone
            cases hnone
          · obtain ⟨e, he⟩ := hexPairs_invalid ⟨d, hd, hnone⟩
            exact ⟨e, by rw [he]; rfl⟩
      · exact ⟨_, rfl⟩

def hexDecoder : VecDecoder where
  decode := vecDecode
  binary _ := rfl
  empty := rfl
  pair a b i j digits bytes ha hb h := by
    simp only [vecDecode, hexDecode, List.length_cons, Nat.add_assoc, Nat.add_mod_right] at h ⊢
    split at h
    · cases h
    · rename_i heven
      rw [if_neg heven, hexPairs, ha, hb]
      simp only [h]
      rfl
  oddLength digits hodd := ⟨_, if_pos hodd⟩
  invalidCharacter digits hd := by
    simp only [vecDecode, hexDecode]
    split
    · exact ⟨_, rfl⟩
    · exact hexPairs_invalid hd

theorem decode_text_exact_hex : Exact fun text => decode hexDecoder .text (some text) :=
  decode_text_exact hexDecoder

end Decoding

end Paranoid.ByteaText
