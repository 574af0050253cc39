import Paranoid.RadixText

namespace Paranoid.SortableIdModel

open ByteCodecs List RadixText

def sortableIdTextLen : Nat := 26

def maxSortableIdMultiCount : Nat := 255

def timestampBits : Nat := 52

def timestampResolutionMicros : Nat := 100

def maxTimestampTicks : Nat := 2 ^ timestampBits - 1

/-- The bytes are in the order of their time. -/
structure SortableId where
  bytes : FixedBytes 16
  deriving DecidableEq

namespace SortableId

def number (id : SortableId) : Nat := BitStaging.value 256 (byteValues id.bytes.val)

instance : LT SortableId := ⟨fun id other => id.bytes.val < other.bytes.val⟩

instance : LE SortableId := ⟨fun id other => id.bytes.val ≤ other.bytes.val⟩

instance (id other : SortableId) : Decidable (id < other) :=
  inferInstanceAs (Decidable (id.bytes.val < other.bytes.val))

instance (id other : SortableId) : Decidable (id ≤ other) :=
  inferInstanceAs (Decidable (id.bytes.val ≤ other.bytes.val))

end SortableId

inductive Error
  | invalidSortableIdCount (actual max : Nat)
  | invalidIdLength (actual : Nat)
  | invalidTextLength (actual : Nat)
  | invalidTextByte (index : Nat) (byte : UInt8)
  | random
  | injectedRandomFillFailed
  deriving DecidableEq

section Time

def unixMicroToTimestampTicks (unixMicro : Int) : Nat :=
  if unixMicro ≤ 0 then 0 else min (unixMicro / timestampResolutionMicros).toNat maxTimestampTicks

/-- The bytes in front of the one that the time shares with what is random. -/
def wholeTimeBytes (ticks : Nat) : Bytes :=
  [44, 36, 28, 20, 12, 4].map fun shift => UInt8.ofNat (ticks >>> shift)

def putTimestampTicks (id : FixedBytes 16) (ticks : Nat) : FixedBytes 16 :=
  ⟨wholeTimeBytes ticks ++
    ((id.val.getD 6 0 &&& (0x0f : UInt8)) ||| UInt8.ofNat (ticks &&& 0x0f) <<< 4) :: id.val.drop 7, by
    rw [length_append, length_cons, length_drop, id.property]
    rfl⟩

def readTimestampTicks (id : FixedBytes 16) : Nat :=
  let place := fun index shift => (id.val.getD index 0).toNat <<< shift
  place 0 44 ||| place 1 36 ||| place 2 28 ||| place 3 20 |||
    place 4 12 ||| place 5 4 ||| (id.val.getD 6 0 >>> 4).toNat

def idToUnixMicros (id : SortableId) : Int := readTimestampTicks id.bytes * timestampResolutionMicros

def zeros : FixedBytes 16 := ⟨replicate 16 0, length_replicate⟩

/-- Ten random bytes, of which the first keeps its lower half. -/
def withRandom (random : FixedBytes 10) : FixedBytes 16 :=
  ⟨replicate 6 0 ++ (random.val.getD 0 0 &&& 0x0f) :: random.val.drop 1, by
    rw [length_append, length_cons, length_drop, random.property]
    rfl⟩

def newAtUnixMicrosWithRandomFill (unixMicros : Int)
    (fillRandom : (n : Nat) → Except Error (FixedBytes n)) : Except Error SortableId := do
  let random ← fillRandom 10
  return ⟨putTimestampTicks (withRandom random) (unixMicroToTimestampTicks unixMicros)⟩

def randomChunk {count : Nat} (random : FixedBytes (count * 10)) (index : Fin count) : FixedBytes 10 :=
  ⟨slice random.val (index * 10) (index * 10 + 10), by
    have hindex := index.isLt
    have hrandom := random.property
    rw [length_slice (by omega)]
    omega⟩

def newMultiWithRandomFill (count : Nat)
    (fillRandom : (n : Nat) → Except Error (FixedBytes n)) (nowUnixMicros : Int) :
    Except Error (List SortableId) := do
  if maxSortableIdMultiCount < count then throw (.invalidSortableIdCount count maxSortableIdMultiCount)
  if count = 0 then return []
  let random ← fillRandom (count * 10)
  let timestampTicks := unixMicroToTimestampTicks nowUnixMicros
  return ofFn fun index => ⟨putTimestampTicks (withRandom (randomChunk random index)) timestampTicks⟩

def minIdAtUnixMicros (unixMicros : Int) : SortableId :=
  ⟨putTimestampTicks zeros (unixMicroToTimestampTicks unixMicros)⟩

def maxIdAtUnixMicros (unixMicros : Int) : SortableId :=
  let upper := (minIdAtUnixMicros unixMicros).bytes
  ⟨upper.val.take 6 ++ (upper.val.getD 6 0 ||| 0x0f) :: replicate 9 0xff, by
    rw [length_append, length_take, length_cons, length_replicate, upper.property]
    rfl⟩

def fromBytes (bytes : Bytes) : Except Error SortableId :=
  if h : bytes.length = 16 then .ok ⟨⟨bytes, h⟩⟩ else .error (.invalidIdLength bytes.length)

end Time

section Text

def base32LowerSymbols : Alphabet where
  symbols := "abcdefghijklmnopqrstuvwxyz234567".toList.map Char.toUInt8
  nodup := by decide

/-- The letters that the decoder is made for, before it takes both cases. -/
def base32Symbols : Alphabet where
  symbols := "ABCDEFGHIJKLMNOPQRSTUVWXYZ234567".toList.map Char.toUInt8
  nodup := by decide

def base32Lower (index : UInt8) : UInt8 := base32LowerSymbols.symbol index.toNat

def encodeBase325ByteChunk (a b c d e : UInt8) : Bytes :=
  [base32Lower (a >>> 3), base32Lower ((a &&& 0x07) <<< 2 ||| b >>> 6), base32Lower (b >>> 1 &&& 0x1f),
    base32Lower ((b &&& 0x01) <<< 4 ||| c >>> 4),
      base32Lower ((c &&& 0x0f) <<< 1 ||| d >>> 7), base32Lower (d >>> 2 &&& 0x1f),
    base32Lower ((d &&& 0x03) <<< 3 ||| e >>> 5), base32Lower (e &&& 0x1f)]

/-- Three chunks of five bytes, and the last byte. -/
def encodeBase32NoPaddingLower (bytes : FixedBytes 16) : Bytes :=
  let byte := fun index => bytes.val.getD index 0
  let chunk := fun start =>
    encodeBase325ByteChunk (byte start) (byte (start + 1))
    (byte (start + 2)) (byte (start + 3)) (byte (start + 4))
  chunk 0 ++ chunk 5 ++ chunk 10 ++ [base32Lower (byte 15 >>> 3),
    base32Lower ((byte 15 &&& 0x07) <<< 2)]

/-- The seven bytes with the time in them, and what they are mixed with. -/
def mixTime (bytes : FixedBytes 16) : FixedBytes 16 :=
  ⟨zipWith (· ^^^ ·) (bytes.val.take 7) (slice bytes.val 7 14) ++ bytes.val.drop 7, by
    have hlength := bytes.property
    rw [length_append, length_zipWith, length_take, length_slice (by omega), length_drop, hlength]
    rfl⟩

def serializeId (id : SortableId) : Bytes := encodeBase32NoPaddingLower (mixTime id.bytes)

def toAsciiUppercase (b : UInt8) : UInt8 := if 97 ≤ b ∧ b ≤ 122 then b - 32 else b

def toAsciiLowercase (b : UInt8) : UInt8 := if 65 ≤ b ∧ b ≤ 90 then b + 32 else b

/-- What is wrong with a text, from a position on. -/
inductive DecodeKind
  | length
  | symbol
  | trailing
  | padding

structure DecodeError where
  position : Nat
  kind : DecodeKind

/-- What is used of the library for base32: it reads symbols of either case, with no bits
behind those of the bytes. -/
structure Crates where
  decodeMut : FixedBytes sortableIdTextLen → Except DecodeError (FixedBytes 16)
  decodeMut_eq_ok : ∀ input bytes, decodeMut input = .ok bytes ↔
    (base32Symbols.read (input.val.map toAsciiUppercase) >>= ofGroups 5) = some bytes.val
  position_lt : ∀ input error, decodeMut input = .error error → error.position < sortableIdTextLen

/-- The first symbol that is none of the alphabet's, else the last one for the bits it must not have. -/
def decodeSymbols (input : FixedBytes sortableIdTextLen) : Except DecodeError (FixedBytes 16) :=
  match input.val.findIdx? fun b => (base32Symbols.valueOf (toAsciiUppercase b)).isNone with
  | some index => .error ⟨index, .symbol⟩
  | none =>
      match base32Symbols.read (input.val.map toAsciiUppercase) >>= ofGroups 5 >>= FixedBytes.fromBytes 16 with
      | some bytes => .ok bytes
      | none => .error ⟨sortableIdTextLen - 1, .trailing⟩

theorem decodeSymbols_eq_ok {input : FixedBytes sortableIdTextLen} {bytes : FixedBytes 16} :
    decodeSymbols input = .ok bytes ↔
      (base32Symbols.read (input.val.map toAsciiUppercase) >>= ofGroups 5) = some bytes.val := by
  rw [decodeSymbols]
  constructor
  · intro h
    split at h
    · cases h
    · split at h
      · next found hfound =>
          cases h
          obtain ⟨read, hread, hbytes⟩ := Option.bind_eq_some_iff.1 hfound
          exact hread.trans (congrArg some (fromBytes_eq_some.1 hbytes).symm)
      · cases h
  · intro h
    obtain ⟨digits, hdigits, hgroups⟩ := Option.bind_eq_some_iff.1 h
    obtain ⟨hlt, htext⟩ := Alphabet.read_eq_some.1 hdigits
    have hall : input.val.findIdx? (fun b => (base32Symbols.valueOf (toAsciiUppercase b)).isNone) =
        none := by
      rw [findIdx?_eq_none_iff]
      intro b hb
      have hmem : toAsciiUppercase b ∈ base32Symbols.spelled digits := htext ▸ mem_map_of_mem hb
      obtain ⟨digit, hdigit, hsymbol⟩ := mem_map.1 hmem
      rw [← hsymbol, Alphabet.valueOf_symbol (hlt digit hdigit)]
      rfl
    rw [hall, h]
    dsimp only
    rw [show (some bytes.val >>= FixedBytes.fromBytes 16) = some bytes from fromBytes_val bytes]

theorem decodeSymbols_position {input : FixedBytes sortableIdTextLen} {error : DecodeError}
    (h : decodeSymbols input = .error error) : error.position < sortableIdTextLen := by
  rw [decodeSymbols] at h
  split at h
  · next index hindex =>
      cases h
      obtain ⟨hlt, -⟩ := findIdx?_eq_some_iff_getElem.1 hindex
      exact hlt.trans_eq input.property
  · split at h
    · cases h
    · cases h
      decide

instance : Inhabited Crates where
  default :=
    { decodeMut := decodeSymbols
      decodeMut_eq_ok := fun _ _ => decodeSymbols_eq_ok
      position_lt := fun _ _ => decodeSymbols_position }

variable (crates : Crates)

def decodeBase32NoPadding (input : FixedBytes sortableIdTextLen) : Except Error (FixedBytes 16) :=
  match crates.decodeMut input with
  | .ok bytes => .ok bytes
  | .error ⟨position, kind⟩ =>
      match kind with
      | .symbol => .error (.invalidTextByte position (input.val.getD position 0))
      | .length => .error (.invalidTextLength input.val.length)
      | .trailing | .padding => .error (.invalidTextByte position (input.val.getD position 0))

def parseId (input : Bytes) : Except Error SortableId :=
  if h : input.length = sortableIdTextLen then do
    let bytes ← decodeBase32NoPadding crates ⟨input, h⟩
    return ⟨mixTime bytes⟩
  else .error (.invalidTextLength input.length)

end Text

end Paranoid.SortableIdModel
