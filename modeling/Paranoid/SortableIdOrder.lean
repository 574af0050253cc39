import Paranoid.Postgres
import Paranoid.SortableIdModel

namespace Paranoid.SortableIdOrder

open BitStaging ByteCodecs List RadixText SortableIdModel
open Postgres (bind_eq_ok)

section Numbers

variable {id other : SortableId} {ticks : Nat} {bytes : FixedBytes 16}

/-- The byte that the time shares, and what is around it. -/
theorem exists_bytes (bytes : FixedBytes 16) : ∃ a b c d e f g rest,
    bytes.val = [a, b, c, d, e, f] ++ g :: rest ∧ rest.length = 9 := by
  obtain ⟨bytes, hlength⟩ := bytes
  match bytes, hlength with
  | a :: b :: c :: d :: e :: f :: g :: rest, hlength =>
      exact ⟨a, b, c, d, e, f, g, rest, rfl, by simpa using hlength⟩

theorem byteValues_lt_iff {left right : Bytes} : byteValues left < byteValues right ↔ left < right := by
  induction left generalizing right with
  | nil => cases right <;> simp [byteValues]
  | cons b left ih =>
      cases right with
      | nil => simp [byteValues]
      | cons c right =>
          have htail : left.map UInt8.toNat < right.map UInt8.toNat ↔ left < right := ih
          rw [byteValues, byteValues, map_cons, map_cons, cons_lt_cons_iff,
            cons_lt_cons_iff, htail, UInt8.lt_iff_toNat_lt,
            UInt8.toNat_inj]

theorem lt_iff_number : id < other ↔ id.number < other.number := by
  have hlength : (byteValues id.bytes.val).length = (byteValues other.bytes.val).length := by
    rw [length_byteValues, length_byteValues, id.bytes.property, other.bytes.property]
  rw [SortableId.number, SortableId.number,
    value_lt_iff (byteValues_lt _) (byteValues_lt _) hlength, byteValues_lt_iff]
  rfl

theorem le_iff_number : id ≤ other ↔ id.number ≤ other.number := by
  rw [← Nat.not_lt, ← lt_iff_number]
  rfl

theorem shiftLeft_or {high low s : Nat} (h : low < 2 ^ s) :
    high <<< s ||| low = high * 2 ^ s + low := by
  rw [← Nat.shiftLeft_add_eq_or_of_lt h, Nat.shiftLeft_eq]

theorem and_lowHalf (n : Nat) : n &&& 0x0f = n % 16 := Nat.and_two_pow_sub_one_eq_mod n 4

theorem sharedByte_toNat (g : UInt8) (ticks : Nat) :
    ((g &&& (0x0f : UInt8)) ||| UInt8.ofNat (ticks &&& 0x0f) <<< 4).toNat =
    ticks % 16 * 16 + g.toNat % 16 := by
  have hticks : ticks % 16 < 16 := Nat.mod_lt _ (by decide)
  have hhigh : (UInt8.ofNat (ticks % 16) <<< 4).toNat = (ticks % 16) <<< 4 := by
    rw [UInt8.toNat_shiftLeft, UInt8.toNat_ofNat_of_lt' (by simp [UInt8.size]; omega)]
    change (ticks % 16) <<< 4 % 256 = _
    rw [Nat.shiftLeft_eq]
    omega
  rw [and_lowHalf, UInt8.toNat_or, UInt8.toNat_and, hhigh]
  change g.toNat &&& 0x0f ||| _ = _
  rw [and_lowHalf, Nat.or_comm]
  exact shiftLeft_or (Nat.mod_lt _ (by decide))

theorem value_wholeTimeBytes (hticks : ticks < 2 ^ 52) :
    value 256 (byteValues (wholeTimeBytes ticks)) = ticks / 16 := by
  simp only [value, byteValues, wholeTimeBytes, map_cons, map_nil,
    foldl_cons, foldl_nil, UInt8.toNat_ofNat', Nat.shiftRight_eq_div_pow]
  omega

/-- A value is that of the six bytes in front, the shared one and the rest. -/
theorem value_split {front rest : Bytes} {g : UInt8} (hrest : rest.length = 9) :
    value 256 (byteValues (front ++ g :: rest)) =
      (value 256 (byteValues front) * 256 + g.toNat) * 2 ^ 72 + value 256 (byteValues rest) := by
  rw [byteValues, map_append, map_cons, value_append, value_cons, length_cons, length_map, hrest]
  simp only [byteValues]
  ring

theorem value_rest_lt {rest : Bytes} (hrest : rest.length = 9) :
    value 256 (byteValues rest) < 2 ^ 72 := by
  have hlt := value_byteValues_lt rest
  rwa [hrest] at hlt

/-- The time counts for more than all that is random. -/
theorem value_putTimestampTicks (hticks : ticks < 2 ^ 52) (bytes : FixedBytes 16) :
    value 256 (byteValues (putTimestampTicks bytes ticks).val) =
      ticks * 2 ^ 76 + value 256 (byteValues bytes.val) % 2 ^ 76 := by
  obtain ⟨a, b, c, d, e, f, g, rest, hbytes, hrest⟩ := exists_bytes bytes
  have hput : (putTimestampTicks bytes ticks).val =
      wholeTimeBytes ticks ++
        ((g &&& (0x0f : UInt8)) ||| UInt8.ofNat (ticks &&& 0x0f) <<< 4) :: rest := by
    change _ ++ (bytes.val.getD 6 0 &&& _ ||| _) :: bytes.val.drop 7 = _
    rw [hbytes]
    rfl
  have hg := g.toNat_lt
  have hlow := value_rest_lt hrest
  rw [hput, hbytes, value_split hrest, value_split hrest, sharedByte_toNat, value_wholeTimeBytes hticks]
  omega

theorem readTimestampTicks_eq (bytes : FixedBytes 16) :
    readTimestampTicks bytes = value 256 (byteValues bytes.val) / 2 ^ 76 := by
  obtain ⟨a, b, c, d, e, f, g, rest, hbytes, hrest⟩ := exists_bytes bytes
  have hread : readTimestampTicks bytes =
    a.toNat <<< 44 ||| b.toNat <<< 36 ||| c.toNat <<< 28 ||| d.toNat <<< 20 |||
      e.toNat <<< 12 ||| f.toNat <<< 4 ||| (g >>> 4).toNat := by
    rw [readTimestampTicks, hbytes]
    rfl
  have hg : (g >>> 4).toNat = g.toNat / 16 := by
    rw [UInt8.toNat_shiftRight]
    exact Nat.shiftRight_eq_div_pow _ 4
  have hb := b.toNat_lt
  have hc := c.toNat_lt
  have hd := d.toNat_lt
  have he := e.toNat_lt
  have hf := f.toNat_lt
  have hglt := g.toNat_lt
  have hlow := value_rest_lt hrest
  rw [hread, hg, hbytes, value_split hrest]
  generalize value 256 (byteValues rest) = low at hlow ⊢
  simp only [value, byteValues, map_cons, map_nil, foldl_cons, foldl_nil, Nat.or_assoc]
  rw [shiftLeft_or (s := 4)
    (by omega), shiftLeft_or (s := 12) (by omega), shiftLeft_or (s := 20) (by omega),
    shiftLeft_or (s := 28)
      (by omega), shiftLeft_or (s := 36) (by omega), shiftLeft_or (s := 44) (by omega)]
  omega

theorem number_lt (id : SortableId) : id.number < 2 ^ 128 := by
  have hlt := value_byteValues_lt id.bytes.val
  rwa [id.bytes.property] at hlt

end Numbers

section Time

variable {id other : SortableId}

def ticks (id : SortableId) : Nat := readTimestampTicks id.bytes

/-- What is behind the time. -/
def tail (id : SortableId) : Nat := id.number % 2 ^ 76

theorem number_eq (id : SortableId) : id.number = ticks id * 2 ^ 76 + tail id := by
  rw [ticks, tail, readTimestampTicks_eq, SortableId.number]
  omega

theorem tail_lt (id : SortableId) : tail id < 2 ^ 76 := Nat.mod_lt _ (by decide)

theorem ticks_lt (id : SortableId) : ticks id < 2 ^ 52 := by
  have hnumber := number_lt id
  rw [number_eq] at hnumber
  omega

theorem unixMicroToTimestampTicks_lt (unixMicro : Int) :
    unixMicroToTimestampTicks unixMicro < 2 ^ 52 := by
  unfold unixMicroToTimestampTicks maxTimestampTicks timestampBits
  split <;> omega

theorem ticks_put (bytes : FixedBytes 16) (unixMicro : Int) :
    ticks ⟨putTimestampTicks bytes (unixMicroToTimestampTicks unixMicro)⟩ =
      unixMicroToTimestampTicks unixMicro := by
  rw [ticks, readTimestampTicks_eq, value_putTimestampTicks (unixMicroToTimestampTicks_lt unixMicro)]
  omega

theorem tail_put (bytes : FixedBytes 16) (unixMicro : Int) :
    tail ⟨putTimestampTicks bytes (unixMicroToTimestampTicks unixMicro)⟩ = tail ⟨bytes⟩ := by
  change value 256 (byteValues (putTimestampTicks bytes _).val) % 2 ^ 76 =
    value 256 (byteValues bytes.val) % 2 ^ 76
  rw [value_putTimestampTicks (unixMicroToTimestampTicks_lt unixMicro)]
  omega

theorem tail_minId (unixMicro : Int) : tail (minIdAtUnixMicros unixMicro) = 0 :=
  tail_put zeros unixMicro

theorem number_minId (unixMicro : Int) :
    (minIdAtUnixMicros unixMicro).number = unixMicroToTimestampTicks unixMicro * 2 ^ 76 := by
  rw [number_eq, tail_minId, Nat.add_zero]
  exact congrArg (· * 2 ^ 76) (ticks_put zeros unixMicro)

theorem fillLowHalf (g : UInt8) : (g ||| 0x0f).toNat = g.toNat / 16 * 16 + 15 := by
  have hlow : ∀ m < 16, m ||| 15 = 15 := by decide
  have hsplit : g.toNat = (g.toNat / 16) <<< 4 ||| g.toNat % 16 := by
    refine Eq.trans ?_ (shiftLeft_or (Nat.mod_lt _ (by decide))).symm
    omega
  rw [UInt8.toNat_or]
  change g.toNat ||| 15 = _
  conv_lhs => rw [hsplit]
  rw [Nat.or_assoc, hlow _ (Nat.mod_lt _ (by decide))]
  exact shiftLeft_or (by decide)

theorem scale (time : Nat) : time * 16 * 2 ^ 72 = time * 2 ^ 76 := Nat.mul_assoc _ _ _

theorem fill_tail {high g low time place : Nat} (hlow : low < place)
    (h : (high * 256 + g) * place + low = time * 16 * place) :
    (high * 256 + (g / 16 * 16 + 15)) * place + (place - 1) = time * 16 * place + (16 * place - 1) := by
  have hzero : low = 0 := by
    have hmod := congrArg (· % place) h
    rwa [Nat.mul_add_mod_of_lt hlow, Nat.mul_mod_left] at hmod
  have htime : high * 256 + g = time * 16 :=
    Nat.eq_of_mul_eq_mul_right (Nat.zero_lt_of_lt hlow) (by rwa [hzero] at h)
  have hfull : high * 256 + (g / 16 * 16 + 15) = time * 16 + 15 := by omega
  rw [hfull, Nat.add_mul]
  omega

theorem number_maxId (unixMicro : Int) : (maxIdAtUnixMicros unixMicro).number =
    unixMicroToTimestampTicks unixMicro * 2 ^ 76 + (2 ^ 76 - 1) := by
  have hmin := number_minId unixMicro
  obtain ⟨a, b, c, d, e, f, g, rest, hbytes, hrest⟩ := exists_bytes (minIdAtUnixMicros unixMicro).bytes
  have hmax : (maxIdAtUnixMicros unixMicro).bytes.val = [a,
    b, c, d, e, f] ++ (g ||| 0x0f) :: replicate 9 0xff := by
    change (minIdAtUnixMicros unixMicro).bytes.val.take 6 ++
      ((minIdAtUnixMicros unixMicro).bytes.val.getD 6 0 ||| 0x0f) :: _ = _
    rw [hbytes]
    rfl
  have hones : value 256 (byteValues (replicate 9 0xff)) = 2 ^ 72 - 1 := by decide
  have hlow := value_rest_lt hrest
  rw [SortableId.number, hbytes, value_split hrest, ← scale] at hmin
  rw [SortableId.number, hmax, value_split length_replicate,
    fillLowHalf, hones, fill_tail hlow hmin, scale]
  norm_num

theorem lt_of_ticks_lt (h : ticks id < ticks other) : id < other := by
  have htail := tail_lt id
  rw [lt_iff_number, number_eq, number_eq]
  omega

/-- The ids of a tick are those between its ends. -/
theorem between_iff (unixMicro : Int) :
    minIdAtUnixMicros unixMicro ≤ id ∧ id ≤ maxIdAtUnixMicros unixMicro ↔
      ticks id = unixMicroToTimestampTicks unixMicro := by
  have htail := tail_lt id
  rw [le_iff_number, le_iff_number, number_minId, number_maxId, number_eq]
  constructor
  · rintro ⟨hmin, hmax⟩
    omega
  · intro h
    rw [h]
    omega

/-- The ids that are made for a time: one, one of many, and the two ends. -/
inductive MadeAt (unixMicros : Int) : SortableId → Prop
  | single {fill : (n : Nat) → Except Error (FixedBytes n)} {id : SortableId}
      (h : newAtUnixMicrosWithRandomFill unixMicros fill = .ok id) : MadeAt unixMicros id
  | multi {count : Nat} {fill : (n : Nat) → Except Error (FixedBytes n)} {ids : List SortableId} {id : SortableId}
      (h : newMultiWithRandomFill count fill unixMicros = .ok ids) (hmem : id ∈ ids) :
      MadeAt unixMicros id
  | earliest : MadeAt unixMicros (minIdAtUnixMicros unixMicros)
  | latest : MadeAt unixMicros (maxIdAtUnixMicros unixMicros)

theorem MadeAt.ticks_eq {unixMicros : Int} (h : MadeAt unixMicros id) :
    ticks id = unixMicroToTimestampTicks unixMicros := by
  cases h with
  | @single fill id h =>
      obtain ⟨random, -, h⟩ := bind_eq_ok.1 h
      cases h
      exact ticks_put _ unixMicros
  | @multi count fill ids id h hmem =>
      rw [newMultiWithRandomFill] at h
      by_cases hcount : maxSortableIdMultiCount < count
      · rw [if_pos hcount] at h
        cases h
      rw [if_neg hcount] at h
      by_cases hnone : count = 0
      · rw [if_pos hnone] at h
        cases h
        cases hmem
      rw [if_neg hnone] at h
      obtain ⟨random, -, h⟩ := bind_eq_ok.1 h
      cases h
      obtain ⟨index, rfl⟩ := mem_ofFn.1 hmem
      exact ticks_put _ unixMicros
  | earliest =>
      exact ((between_iff unixMicros).1 ⟨le_iff_number.2 le_rfl,
        by rw [le_iff_number, number_minId, number_maxId]; omega⟩)
  | latest =>
      exact ((between_iff unixMicros).1
        ⟨by rw [le_iff_number, number_minId, number_maxId]; omega, le_iff_number.2 le_rfl⟩)

def lastUnixMicros : Int := maxTimestampTicks * timestampResolutionMicros

/-- The time at which the tick of a time starts, where times before the first tick and behind the last one are at these. -/
structure StartsTick (unixMicros start : Int) : Prop where
  before : unixMicros ≤ 0 → start = 0
  behind : lastUnixMicros ≤ unixMicros → start = lastUnixMicros
  within : 0 ≤ unixMicros → unixMicros < lastUnixMicros →
    start ≤ unixMicros ∧ unixMicros < start + 100 ∧ start % 100 = 0

theorem startsTick (unixMicros : Int) :
    StartsTick unixMicros (unixMicroToTimestampTicks unixMicros * timestampResolutionMicros) := by
  constructor <;> intros <;>
    simp only [lastUnixMicros, unixMicroToTimestampTicks, maxTimestampTicks,
      timestampBits, timestampResolutionMicros] at * <;> split <;> omega

/-- Ids are in the order of their ticks, the ids of a tick are those between its two ends, and what
is read of an id is the start of its tick. -/
theorem order_refines_time :
    (∀ earlier later id other, MadeAt earlier id → MadeAt later other →
      unixMicroToTimestampTicks earlier < unixMicroToTimestampTicks later → id < other) ∧
    (∀ id unixMicros, minIdAtUnixMicros unixMicros ≤ id ∧ id ≤ maxIdAtUnixMicros unixMicros ↔
      readTimestampTicks id.bytes = unixMicroToTimestampTicks unixMicros) ∧
    (∀ unixMicros id, MadeAt unixMicros id → StartsTick unixMicros (idToUnixMicros id)) ∧
    ∀ id, 0 ≤ idToUnixMicros id ∧ idToUnixMicros id ≤ lastUnixMicros ∧ lastUnixMicros < 2 ^ 63 ∧
      unixMicroToTimestampTicks (idToUnixMicros id) = readTimestampTicks id.bytes ∧
      ∀ unixMicros, 0 ≤ unixMicros → unixMicroToTimestampTicks unixMicros =
        readTimestampTicks id.bytes → idToUnixMicros id ≤ unixMicros := by
  refine ⟨?_, fun id unixMicros => between_iff unixMicros, ?_, fun id => ?_⟩
  · intro earlier later id other hid hother hlt
    exact lt_of_ticks_lt (by rwa [hid.ticks_eq, hother.ticks_eq])
  · intro unixMicros id hid
    have hstart := startsTick unixMicros
    rwa [← hid.ticks_eq] at hstart
  · have hlt : readTimestampTicks id.bytes < 2 ^ 52 := ticks_lt id
    rw [idToUnixMicros]
    generalize readTimestampTicks id.bytes = n at hlt ⊢
    simp only [lastUnixMicros, unixMicroToTimestampTicks,
      maxTimestampTicks, timestampBits, timestampResolutionMicros]
    refine ⟨by omega, by omega, by decide, ?_, fun unixMicros hzero h => ?_⟩
    · rcases Nat.eq_zero_or_pos n with rfl | hn
      · exact if_pos (by omega)
      · refine (if_neg (by omega)).trans ?_
        omega
    · split at h <;> omega

end Time

end Paranoid.SortableIdOrder
