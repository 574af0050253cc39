import Mathlib.Algebra.Ring.Nat
import Mathlib.Data.List.Basic
import Mathlib.Data.Nat.Basic

namespace Paranoid.ByteCodecs

abbrev Bytes : Type := List UInt8

/-- A byte array of a fixed size. -/
abbrev FixedBytes (n : Nat) : Type := { bytes : Bytes // bytes.length = n }

def FixedBytes.fromBytes (n : Nat) (bytes : Bytes) : Option (FixedBytes n) :=
  if h : bytes.length = n then some ⟨bytes, h⟩ else none

@[simp] theorem fromBytes_val {n : Nat} (bytes : FixedBytes n) :
    FixedBytes.fromBytes n bytes.val = some bytes :=
  dif_pos bytes.property

theorem fromBytes_eq_some {n : Nat} {bytes : Bytes} {fixed : FixedBytes n} :
    FixedBytes.fromBytes n bytes = some fixed ↔ fixed.val = bytes := by
  unfold FixedBytes.fromBytes
  split
  · rw [Option.some.injEq]
    exact ⟨fun h => h ▸ rfl, fun h => Subtype.ext h.symm⟩
  · rename_i hlength
    refine ⟨nofun, ?_⟩
    rintro rfl
    exact absurd fixed.property hlength

/-- The bytes from one offset up to another. -/
def slice (bytes : Bytes) (start stop : Nat) : Bytes := (bytes.drop start).take (stop - start)

theorem slice_append_left {before bytes after : Bytes}
    {start stop : Nat} (hstart : before.length = start)
    (hstop : start + bytes.length = stop) : slice (before ++ (bytes ++ after)) start stop = bytes := by
  subst hstart hstop
  simp [slice]

theorem slice_eq_of_split {all bytes : Bytes} {start stop : Nat} (before after : Bytes)
    (hsplit : all = before ++ (bytes ++ after)) (hstart : before.length = start)
    (hstop : start + bytes.length = stop) : slice all start stop = bytes := by
  rw [hsplit]
  exact slice_append_left hstart hstop

/-- Slices side by side are one slice. -/
theorem slice_append_slice {bytes : Bytes} {start middle stop : Nat}
    (hstart : start ≤ middle) (hstop : middle ≤ stop) :
    slice bytes start middle ++ slice bytes middle stop = slice bytes start stop := by
  have hdrop : bytes.drop middle = (bytes.drop start).drop (middle - start) := by
    rw [List.drop_drop, Nat.add_sub_cancel' hstart]
  have hlength : stop - start = (middle - start) + (stop - middle) := by omega
  rw [slice, slice, slice, hdrop, hlength, List.take_add]

theorem length_slice {bytes : Bytes} {start stop : Nat} (hstop : stop ≤ bytes.length) :
    (slice bytes start stop).length = stop - start := by
  rw [slice, List.length_take, List.length_drop]
  omega

theorem slice_one {bytes : Bytes} {start : Nat} (h : start < bytes.length) :
    slice bytes start (start + 1) = [bytes.getD start 0] := by
  rw [slice, Nat.add_sub_cancel_left, List.drop_eq_getElem_cons h, List.take_succ_cons, List.take_zero]
  simp [h]

theorem slice_zero_append_drop (bytes : Bytes) (n : Nat) : slice bytes 0 n ++ bytes.drop n = bytes := by
  simp [slice]

/-- Behind the first byte. -/
theorem slice_cons_append {b : UInt8} {bytes after : Bytes}
    {stop : Nat} (hstop : 1 + bytes.length = stop) :
    slice (b :: (bytes ++ after)) 1 stop = bytes := by
  subst hstop
  simp [slice]

def leBytes : Nat → Nat → Bytes
  | 0, _ => []
  | width + 1, n => UInt8.ofNat n :: leBytes width (n / 256)

def ofLeBytes : Bytes → Nat
  | [] => 0
  | b :: bytes => b.toNat + 256 * ofLeBytes bytes

def beBytes (width n : Nat) : Bytes := (leBytes width n).reverse

@[simp] theorem length_leBytes (width n : Nat) : (leBytes width n).length = width := by
  induction width generalizing n with
  | zero => rfl
  | succ width ih => simp [leBytes, ih]

@[simp] theorem length_beBytes (width n : Nat) : (beBytes width n).length = width := by
  simp [beBytes]

theorem ofLeBytes_leBytes {width n : Nat} (h : n < 256 ^ width) : ofLeBytes (leBytes width n) = n := by
  induction width generalizing n with
  | zero => simp_all [leBytes, ofLeBytes]
  | succ width ih =>
      have hquotient : n / 256 < 256 ^ width := by
        rw [Nat.div_lt_iff_lt_mul (by decide), ← Nat.pow_succ]
        exact h
      rw [leBytes, ofLeBytes, ih hquotient, UInt8.toNat_ofNat']
      exact Nat.mod_add_div n 256

theorem beBytes_inj {width n m : Nat} (hn : n < 256 ^ width)
    (hm : m < 256 ^ width) (h : beBytes width n = beBytes width m) :
    n = m := by
  have hbytes : leBytes width n = leBytes width m := List.reverse_inj.1 h
  rw [← ofLeBytes_leBytes hn, hbytes, ofLeBytes_leBytes hm]

end Paranoid.ByteCodecs
