import Mathlib.Data.List.Nodup
import Paranoid.BitStaging
import Paranoid.PaddedDecimal
import Paranoid.SpacedWords
import Paranoid.TextCodecs

namespace Paranoid.MnemonicModel

open BitStaging ByteCodecs SpacedWords
open TextCodecs (CodecError divCeil saturatingAdd saturatingMul usizeMax validateCanonicalEncoding
  validateDecodedLen validateEncodedLen)
open Utf8Text (Text utf8Len)

def mnemonicWordBits : Nat := 11

def mnemonicWordMask : Nat := (1 <<< mnemonicWordBits) - 1

def mnemonicVersion : Nat := 0

def mnemonicPaddingValueCount : Nat := mnemonicWordBits

def mnemonicChecksumWordCount : Nat := 2

def minMnemonicWordCount : Nat := 1 + mnemonicChecksumWordCount

def mnemonicChecksumContext : Bytes := EnvelopeModel.utf8 "paranoid/mnemonic-codec/v1/checksum"

/-- The characters with the property White_Space. -/
def isWhitespace (c : Char) : Bool :=
  (0x9 ≤ c.toNat && c.toNat ≤ 0xd) || c.toNat = 0x20 ||
    c.toNat = 0x85 || c.toNat = 0xa0 || c.toNat = 0x1680 ||
    (0x2000 ≤ c.toNat && c.toNat ≤ 0x200a) ||
      c.toNat = 0x2028 || c.toNat = 0x2029 || c.toNat = 0x202f ||
    c.toNat = 0x205f || c.toNat = 0x3000

/-- The fixed vocabulary. -/
structure WordList where
  words : List Text
  length_words : words.length = 2048
  nodup : words.Nodup
  isWord : ∀ word ∈ words, IsWord isWhitespace word
  short : ∀ word ∈ words, utf8Len word ≤ 8

theorem digitChar_visible : ∀ d < 10, isWhitespace (PaddedDecimal.digitChar d) = false ∧
    (PaddedDecimal.digitChar d).utf8Size = 1 := by
  decide

theorem padded_isWord {width : Nat} (hwidth : 0 < width) (n : Nat) :
    IsWord isWhitespace (PaddedDecimal.padded width n) := by
  refine ⟨List.ne_nil_of_length_pos (by rwa [PaddedDecimal.length_padded]), ?_⟩
  exact PaddedDecimal.forall_mem_padded (fun d hd => (digitChar_visible d hd).1) width n

theorem utf8Len_padded (width n : Nat) : utf8Len (PaddedDecimal.padded width n) = width := by
  have hsizes : ∀ c ∈ PaddedDecimal.padded width n, c.utf8Size = 1 :=
    PaddedDecimal.forall_mem_padded (fun d hd => (digitChar_visible d hd).2) width n
  rw [utf8Len, List.map_congr_left hsizes, List.map_const',
    List.sum_replicate_nat, PaddedDecimal.length_padded, Nat.mul_one]

/-- Numbers are such words as well. -/
instance : Inhabited WordList where
  default :=
    { words := (List.range 2048).map (PaddedDecimal.padded 4)
      length_words := by rw [List.length_map, List.length_range]
      nodup := by
        refine List.Nodup.map_on ?_ List.nodup_range
        intro m hm n hn h
        rw [List.mem_range] at hm hn
        exact PaddedDecimal.padded_inj (by omega) (by omega) h
      isWord := by
        rw [List.forall_mem_map]
        exact fun n _ => padded_isWord (by decide) n
      short := by
        rw [List.forall_mem_map]
        exact fun n _ => (utf8Len_padded 4 n).le.trans (by decide) }

section Codec

variable (words : WordList) (blake3 : Bytes → FixedBytes 32)

def maxMnemonicWordCountForDecodedLen (decodedLen : Nat) : Nat :=
  1 + divCeil (saturatingMul decodedLen 8) mnemonicWordBits + mnemonicChecksumWordCount

def maxMnemonicEncodedLenForDecodedLen (decodedLen : Nat) : Nat :=
  saturatingMul (maxMnemonicWordCountForDecodedLen decodedLen)
    (saturatingAdd ((words.words.map utf8Len).max?.getD 0) 1)

def lowBitMask (bitCount : Nat) : Nat := if bitCount = 0 then 0 else (1 <<< bitCount) - 1

def mnemonicChecksumWords (bytes : Bytes) : List Nat :=
  let digest := (blake3 (mnemonicChecksumContext ++ (beBytes 8 bytes.length ++ bytes))).val
  let checksumBits :=
    (((digest.getD 0 0).toNat <<< 16) |||
      ((digest.getD 1 0).toNat <<< 8) ||| (digest.getD 2 0).toNat) >>> 2
  [(checksumBits >>> mnemonicWordBits) &&& mnemonicWordMask, checksumBits &&& mnemonicWordMask]

def pushMnemonicWord (encoded : Text) (index : Nat) : Except CodecError Text :=
  match words.words[index]? with
  | some word => .ok (pushWord ' ' encoded word)
  | none => .error (.fault .wordIndexOutOfRange)

/-- On 32 bits. -/
def shiftStagedBits (bits width : Nat) : Except CodecError Nat :=
  if bits <<< width < 2 ^ 32 then .ok (bits <<< width) else .error (.fault .stagedBitsOverflow)

def stage (staging : Staging) (width digit : Nat) : Except CodecError Staging := do
  let bits ← shiftStagedBits staging.bits width
  return ⟨bits ||| digit, staging.count + width⟩

/-- The encoder's inner loop. -/
def writeStagedWords (staging : Staging) (encoded : Text) : Except CodecError (Staging × Text) :=
  if mnemonicWordBits ≤ staging.count then do
    let count := staging.count - mnemonicWordBits
    let encoded ← pushMnemonicWord words encoded ((staging.bits >>> count) &&& mnemonicWordMask)
    writeStagedWords ⟨staging.bits &&& lowBitMask count, count⟩ encoded
  else .ok (staging, encoded)
termination_by staging.count
decreasing_by
  simp only [mnemonicWordBits] at *
  omega

def writeBytes : Bytes → Staging → Text → Except CodecError (Staging × Text)
  | [], staging, encoded => .ok (staging, encoded)
  | byte :: bytes, staging, encoded => do
      let staging ← stage staging 8 byte.toNat
      let (staging, encoded) ← writeStagedWords words staging encoded
      writeBytes bytes staging encoded

/-- The last bits of the bytes, shifted to the front of a word. -/
def writeLastWord (staging : Staging) (encoded : Text) : Except CodecError Text :=
  if 0 < staging.count then do
    let index ← shiftStagedBits staging.bits (mnemonicWordBits - staging.count)
    pushMnemonicWord words encoded index
  else .ok encoded

def dataWordCount (byteCount : Nat) : Nat :=
  byteCount * 8 / mnemonicWordBits + if byteCount * 8 % mnemonicWordBits = 0 then 0 else 1

def encodeMnemonic (bytes : Bytes) : Except CodecError Text := do
  let paddingBits := dataWordCount bytes.length * mnemonicWordBits - bytes.length * 8
  let headerWordIndex := mnemonicVersion * mnemonicPaddingValueCount + paddingBits
  let encoded ← pushMnemonicWord words [] headerWordIndex
  let (staging, encoded) ← writeBytes words bytes ⟨0, 0⟩ encoded
  let encoded ← writeLastWord words staging encoded
  (mnemonicChecksumWords blake3 bytes).foldlM (pushMnemonicWord words) encoded

/-- The words behind the first ones. -/
def lookUpWords (maxWordCount : Nat) : Nat → List Text → Except CodecError (List Nat)
  | _, [] => .ok []
  | index, word :: following =>
      if maxWordCount ≤ index then .error (.encodedTextTooLarge .mnemonic (index + 1) maxWordCount)
      else
        match words.words.idxOf? word with
        | none => .error (.unknownMnemonicWord index)
        | some wordIndex => do
            let indices ← lookUpWords maxWordCount (index + 1) following
            return wordIndex :: indices

def mnemonicWordIndices (encoded : Text) (maxWordCount : Nat) : Except CodecError (List Nat) := do
  let indices ← lookUpWords words maxWordCount 0 (splitSpaces isWhitespace encoded)
  if indices = [] then throw .emptyMnemonic
  return indices

/-- The decoder's inner loop. -/
def readStagedBytes (expectedByteCount : Nat) (staging : Staging) (decoded : Bytes) : Staging × Bytes :=
  if 8 ≤ staging.count ∧ decoded.length < expectedByteCount then
    readStagedBytes expectedByteCount
      ⟨staging.bits &&& lowBitMask (staging.count - 8), staging.count - 8⟩
      (decoded ++ [UInt8.ofNat (staging.bits >>> (staging.count - 8))])
  else (staging, decoded)
termination_by staging.count

def readWords (expectedByteCount : Nat) :
    List Nat → Staging → Bytes → Except CodecError (Staging × Bytes)
  | [], staging, decoded => .ok (staging, decoded)
  | wordIndex :: wordIndices, staging, decoded => do
      let staging ← stage staging mnemonicWordBits wordIndex
      let (staging, decoded) := readStagedBytes expectedByteCount staging decoded
      readWords expectedByteCount wordIndices staging decoded

/-- The header word's padding, when the data words leave whole bytes with it. -/
def expectedByteCount (wordIndices : List Nat) : Except CodecError (Nat × Nat) :=
  let headerWord := wordIndices.headD 0
  let version := headerWord / mnemonicPaddingValueCount
  let paddingBits := headerWord % mnemonicPaddingValueCount
  let dataWordCount := wordIndices.length - minMnemonicWordCount
  let dataBitCount := dataWordCount * mnemonicWordBits
  if version ≠ mnemonicVersion then .error (.unsupportedMnemonicVersion version)
  else if dataBitCount < paddingBits then .error (.invalidMnemonicPadding paddingBits dataWordCount)
  else if (dataBitCount - paddingBits) % 8 ≠ 0 then .error (.invalidMnemonicPadding paddingBits dataWordCount)
  else .ok ((dataBitCount - paddingBits) / 8, paddingBits)

def decodeWordIndices (wordIndices : List Nat) (maxDecodedLen : Nat) : Except CodecError Bytes := do
  if wordIndices.length < minMnemonicWordCount then
    throw (.mnemonicTooShort wordIndices.length minMnemonicWordCount)
  let (byteCount, paddingBits) ← expectedByteCount wordIndices
  validateDecodedLen .mnemonic byteCount maxDecodedLen
  let dataWordCount := wordIndices.length - minMnemonicWordCount
  let (staging, decoded) ← readWords byteCount ((wordIndices.drop 1).take dataWordCount) ⟨0, 0⟩ []
  if staging.count ≠ paddingBits ∨ staging.bits ≠ 0 then throw (.invalidMnemonicPadding paddingBits dataWordCount)
  if wordIndices.drop (1 + dataWordCount) ≠ mnemonicChecksumWords blake3 decoded then throw .invalidMnemonicChecksum
  return decoded

def decodeMnemonic (encoded : Text) (maxDecodedLen : Nat) : Except CodecError Bytes := do
  validateEncodedLen .mnemonic (utf8Len encoded) (maxMnemonicEncodedLenForDecodedLen words maxDecodedLen)
  let wordIndices ← mnemonicWordIndices words encoded (maxMnemonicWordCountForDecodedLen maxDecodedLen)
  let decoded ← decodeWordIndices blake3 wordIndices maxDecodedLen
  let canonical ← encodeMnemonic words blake3 decoded
  validateCanonicalEncoding .mnemonic encoded canonical
  return decoded

end Codec

end Paranoid.MnemonicModel
