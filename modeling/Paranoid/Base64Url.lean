import Mathlib.Data.Nat.ModEq
import Paranoid.ByteCodecs
import Paranoid.Postgres

namespace Paranoid.Base64Url

open ByteCodecs

/-- The letter that stands for six bits. -/
def symbol (n : Nat) : UInt8 :=
  if n < 26 then .ofNat (65 + n)
  else if n < 52 then .ofNat (97 + (n - 26))
  else if n < 62 then .ofNat (48 + (n - 52))
  else if n = 62 then 45
  else 95

def valueOf (b : UInt8) : Option Nat :=
  if 65 ≤ b ∧ b ≤ 90 then some (b.toNat - 65)
  else if 97 ≤ b ∧ b ≤ 122 then some (b.toNat - 97 + 26)
  else if 48 ≤ b ∧ b ≤ 57 then some (b.toNat - 48 + 52)
  else if b = 45 then some 62
  else if b = 95 then some 63
  else none

/-- Three bytes are four letters, and there is no padding. -/
def encode : Bytes → Bytes
  | a :: b :: c :: rest =>
      symbol (a.toNat / 4) :: symbol (a.toNat % 4 * 16 + b.toNat / 16) ::
        symbol (b.toNat % 16 * 4 + c.toNat / 64) ::
        symbol (c.toNat % 64) :: encode rest
  | [a, b] => [symbol (a.toNat / 4),
      symbol (a.toNat % 4 * 16 + b.toNat / 16), symbol (b.toNat % 16 * 4)]
  | [a] => [symbol (a.toNat / 4), symbol (a.toNat % 4 * 16)]
  | [] => []

/-- The bits that are left over at the end have to be zero. -/
def decode : Bytes → Option Bytes
  | s :: t :: u :: v :: rest => do
      let i ← valueOf s
      let j ← valueOf t
      let k ← valueOf u
      let l ← valueOf v
      let bytes ← decode rest
      return .ofNat (i * 4 + j / 16) :: .ofNat (j % 16 * 16 + k / 4) :: .ofNat (k % 4 * 64 + l) :: bytes
  | [s, t, u] => do
      let i ← valueOf s
      let j ← valueOf t
      let k ← valueOf u
      if k % 4 = 0 then return [.ofNat (i * 4 + j / 16), .ofNat (j % 16 * 16 + k / 4)] else none
  | [s, t] => do
      let i ← valueOf s
      let j ← valueOf t
      if j % 16 = 0 then return [.ofNat (i * 4 + j / 16)] else none
  | [_] => none
  | [] => some []

def encodedLength (n : Nat) : Nat := (n * 4 + 2) / 3

theorem valueOf_symbol_all : ∀ n < 64, valueOf (symbol n) = some n := by decide +kernel

theorem valueOf_symbol {n : Nat} (h : n < 64) : valueOf (symbol n) = some n := valueOf_symbol_all n h

theorem ofNat_eq {b : UInt8} {n : Nat} (h : n = b.toNat) : UInt8.ofNat n = b := by
  rw [h, UInt8.ofNat_toNat]

theorem decode_encode (bytes : Bytes) : decode (encode bytes) = some bytes := by
  induction bytes using encode.induct with
  | case1 a b c rest ih =>
      have ha := a.toNat_lt
      have hb := b.toNat_lt
      have hc := c.toNat_lt
      rw [encode, decode,
        valueOf_symbol (by omega), valueOf_symbol (by omega), valueOf_symbol (by omega),
        valueOf_symbol (by omega), ih]
      simp only [Option.bind_eq_bind, Option.bind_some, Option.pure_def]
      rw [ofNat_eq (b := a) (by omega), ofNat_eq (b := b) (by omega), ofNat_eq (b := c) (by omega)]
  | case2 a b =>
      have ha := a.toNat_lt
      have hb := b.toNat_lt
      rw [encode, decode,
        valueOf_symbol (by omega), valueOf_symbol (by omega), valueOf_symbol (by omega)]
      simp only [Option.bind_eq_bind, Option.bind_some, Option.pure_def]
      rw [if_pos (by omega), ofNat_eq (b := a) (by omega), ofNat_eq (b := b) (by omega)]
  | case3 a =>
      have ha := a.toNat_lt
      rw [encode, decode, valueOf_symbol (by omega), valueOf_symbol (by omega)]
      simp only [Option.bind_eq_bind, Option.bind_some, Option.pure_def]
      rw [if_pos (by omega), ofNat_eq (b := a) (by omega)]
  | case4 => rfl

theorem length_encode (bytes : Bytes) : (encode bytes).length = encodedLength bytes.length := by
  induction bytes using encode.induct with
  | case1 a b c rest ih =>
      simp only [encode, encodedLength, List.length_cons] at ih ⊢
      omega
  | case2 a b => simp [encode, encodedLength]
  | case3 a => simp [encode, encodedLength]
  | case4 => rfl

/-- A letter of the alphabet. -/
def IsSymbol (b : UInt8) : Prop := (valueOf b).isSome

theorem isSymbol_symbol {n : Nat} (h : n < 64) : IsSymbol (symbol n) := by
  rw [IsSymbol, valueOf_symbol h]
  rfl

theorem isSymbol_of_mem_encode {bytes : Bytes} {b : UInt8} (h : b ∈ encode bytes) : IsSymbol b := by
  induction bytes using encode.induct with
  | case1 x y z rest ih =>
      have hx := x.toNat_lt
      have hy := y.toNat_lt
      have hz := z.toNat_lt
      rw [encode, List.mem_cons, List.mem_cons, List.mem_cons, List.mem_cons] at h
      rcases h with rfl | rfl | rfl | rfl | h
      · exact isSymbol_symbol (by omega)
      · exact isSymbol_symbol (by omega)
      · exact isSymbol_symbol (by omega)
      · exact isSymbol_symbol (by omega)
      · exact ih h
  | case2 x y =>
      have hx := x.toNat_lt
      have hy := y.toNat_lt
      simp only [encode, List.mem_cons, List.not_mem_nil, or_false] at h
      rcases h with rfl | rfl | rfl
      · exact isSymbol_symbol (by omega)
      · exact isSymbol_symbol (by omega)
      · exact isSymbol_symbol (by omega)
  | case3 x =>
      have hx := x.toNat_lt
      simp only [encode, List.mem_cons, List.not_mem_nil, or_false] at h
      rcases h with rfl | rfl
      · exact isSymbol_symbol (by omega)
      · exact isSymbol_symbol (by omega)
  | case4 => exact absurd h List.not_mem_nil

theorem isSymbol_lt {b : UInt8} (h : IsSymbol b) : b.toNat < 128 := by
  unfold IsSymbol valueOf at h
  by_contra hhigh
  have hle : ∀ n : UInt8, n.toNat < 128 → ¬b ≤ n := fun n hn hle => by
    rw [UInt8.le_iff_toNat_le] at hle
    omega
  have hne : ∀ n : UInt8, n.toNat < 128 → b ≠ n := fun n hn he => by
    subst he
    omega
  rw [if_neg fun hb => hle 90 (by decide) hb.2, if_neg fun hb => hle 122 (by decide) hb.2,
    if_neg fun hb => hle 57
      (by decide) hb.2, if_neg (hne 45 (by decide)), if_neg (hne 95 (by decide))] at h
  cases h

end Paranoid.Base64Url
