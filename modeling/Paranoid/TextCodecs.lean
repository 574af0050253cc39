import Paranoid.Base64Url
import Paranoid.EnvelopeModel
import Paranoid.RadixText
import Paranoid.Utf8Text

namespace Paranoid.TextCodecs

open ByteCodecs List RadixText
open Postgres (ok_bind)
open Utf8Text (Text)

section Errors

inductive CodecName
  | base64url
  | crockfordBase32
  | base58
  | mnemonic
  deriving DecidableEq

/-- Where the source would stop at an index out of range or lose bits of its accumulator. -/
inductive Fault
  | wordIndexOutOfRange
  | stagedBitsOverflow
  deriving DecidableEq

/-- The errors of the codecs. Base58 has one of its own for text that is none. -/
inductive CodecError
  | encodedTextTooLarge (codec : CodecName) (actual max : Nat)
  | encodingDecode (codec : CodecName)
  | base58Decode
  | decodedBytesTooLarge (codec : CodecName) (actual max : Nat)
  | nonCanonicalEncoding (codec : CodecName)
  | emptyMnemonic
  | mnemonicTooShort (words min : Nat)
  | unknownMnemonicWord (index : Nat)
  | unsupportedMnemonicVersion (version : Nat)
  | invalidMnemonicPadding (paddingBits dataWordCount : Nat)
  | invalidMnemonicChecksum
  | fault (fault : Fault)
  deriving DecidableEq

def validateEncodedLen (codec : CodecName) (actual max : Nat) : Except CodecError Unit :=
  if max < actual then .error (.encodedTextTooLarge codec actual max) else .ok ()

def validateDecodedLen (codec : CodecName) (actual max : Nat) : Except CodecError Unit :=
  if max < actual then .error (.decodedBytesTooLarge codec actual max) else .ok ()

/-- The texts are compared as characters or as bytes. -/
def validateCanonicalEncoding {α : Type} [DecidableEq α] (codec : CodecName)
    (encoded canonical : α) : Except CodecError Unit :=
  if encoded ≠ canonical then .error (.nonCanonicalEncoding codec) else .ok ()

end Errors

section Limits

/-- The typed containers that edge text is decoded for. -/
inductive EdgeByteContainer
  | key32
  | secretBytes
  | publicBytes
  | encrypted
  | macOverSecret

def EdgeByteContainer.maxDecodedLen : EdgeByteContainer → Nat
  | key32 => 32
  | secretBytes => 2 ^ 20
  | publicBytes => 2 ^ 20
  | encrypted => EnvelopeModel.maxEnvelopeSize
  | macOverSecret => 1 + 32

theorem EdgeByteContainer.maxDecodedLen_le (container : EdgeByteContainer) :
    container.maxDecodedLen ≤ 2 ^ 32 := by
  cases container <;> decide

def usizeMax : Nat := 2 ^ 64 - 1

def saturatingMul (a b : Nat) : Nat := min (a * b) usizeMax

def saturatingAdd (a b : Nat) : Nat := min (a + b) usizeMax

def divCeil (a b : Nat) : Nat := (a + (b - 1)) / b

def maxBase64urlEncodedLenForDecodedLen (decodedLen : Nat) : Nat :=
  divCeil (saturatingMul decodedLen 4) 3

def maxCrockfordBase32EncodedLenForDecodedLen (decodedLen : Nat) : Nat :=
  divCeil (saturatingMul decodedLen 8) 5

def maxBase58EncodedLenForDecodedLen (decodedLen : Nat) : Nat :=
  saturatingAdd (divCeil (saturatingMul decodedLen 138) 100) 1

end Limits

section Crates

/-- The codecs that other crates have. -/
inductive TextCodec
  | base64url
  | crockfordBase32
  | base58
  deriving DecidableEq

def TextCodec.name : TextCodec → CodecName
  | .base64url => .base64url
  | .crockfordBase32 => .crockfordBase32
  | .base58 => .base58

def crockfordBase32Symbols : Alphabet where
  symbols := "0123456789ABCDEFGHJKMNPQRSTVWXYZ".toList.map Char.toUInt8
  nodup := by decide

def base58Symbols : Alphabet where
  symbols := "123456789ABCDEFGHJKLMNPQRSTUVWXYZabcdefghijkmnopqrstuvwxyz".toList.map Char.toUInt8
  nodup := by decide

/-- The text that stands for bytes in the alphabet of the codec. -/
def standardText : TextCodec → Bytes → Bytes
  | .base64url, bytes => Base64Url.encode bytes
  | .crockfordBase32, bytes => crockfordBase32Symbols.spelled (toGroups 5 bytes)
  | .base58, bytes => base58Symbols.spelled (convert 256 58 (byteValues bytes))

def readStandardText : TextCodec → Bytes → Option Bytes
  | .base64url, encoded => Base64Url.decode encoded
  | .crockfordBase32, encoded => crockfordBase32Symbols.read encoded >>= ofGroups 5
  | .base58, encoded => (base58Symbols.read encoded).map fun digits => bytesOf (convert 58 256 digits)

theorem readStandardText_standardText (codec : TextCodec) (bytes : Bytes) :
    readStandardText codec (standardText codec bytes) = some bytes := by
  cases codec with
  | base64url => exact Base64Url.decode_encode bytes
  | crockfordBase32 =>
      have hread : crockfordBase32Symbols.read (standardText .crockfordBase32 bytes) =
        some (toGroups 5 bytes) :=
        Alphabet.read_eq_some.2 ⟨toGroups_lt 5 bytes, rfl⟩
      rw [readStandardText, hread]
      exact ofGroups_toGroups (by decide) (by decide) bytes
  | base58 =>
      have hread : base58Symbols.read (standardText .base58 bytes) =
        some (convert 256 58 (byteValues bytes)) :=
        Alphabet.read_eq_some.2 ⟨convert_lt (by decide) _, rfl⟩
      rw [readStandardText, hread, Option.map_some,
        convert_convert (by decide) (byteValues_lt bytes), bytesOf_byteValues]

/-- What is used of the libraries for texts: they write the standard alphabets, and read what
they write. -/
structure Crates where
  encode : TextCodec → Bytes → Bytes
  decode : TextCodec → Bytes → Option Bytes
  encode_eq : ∀ codec bytes, encode codec bytes = standardText codec bytes
  decode_encode : ∀ codec bytes, decode codec (encode codec bytes) = some bytes

instance : Inhabited Crates where
  default :=
    { encode := standardText
      decode := readStandardText
      encode_eq := fun _ _ => rfl
      decode_encode := readStandardText_standardText }

end Crates

section Codecs

def maxEncodedLenForDecodedLen : TextCodec → Nat → Nat
  | .base64url => maxBase64urlEncodedLenForDecodedLen
  | .crockfordBase32 => maxCrockfordBase32EncodedLenForDecodedLen
  | .base58 => maxBase58EncodedLenForDecodedLen

def unreadable : TextCodec → CodecError
  | .base64url => .encodingDecode .base64url
  | .crockfordBase32 => .encodingDecode .crockfordBase32
  | .base58 => .base58Decode

variable (crates : Crates)

/-- The three decoders are the same but for what they call. -/
def decodeText (codec : TextCodec) (encoded : Bytes) (maxDecodedLen : Nat) :
    Except CodecError Bytes := do
  validateEncodedLen codec.name encoded.length (maxEncodedLenForDecodedLen codec maxDecodedLen)
  match crates.decode codec encoded with
  | none => throw (unreadable codec)
  | some decoded =>
      validateDecodedLen codec.name decoded.length maxDecodedLen
      validateCanonicalEncoding codec.name encoded (crates.encode codec decoded)
      return decoded

def encodeBase64url : Bytes → Bytes := crates.encode .base64url

def decodeBase64url : Bytes → Nat → Except CodecError Bytes := decodeText crates .base64url

def encodeCrockfordBase32 : Bytes → Bytes := crates.encode .crockfordBase32

def decodeCrockfordBase32 : Bytes → Nat → Except CodecError Bytes :=
  decodeText crates .crockfordBase32

def encodeBase58 : Bytes → Bytes := crates.encode .base58

def decodeBase58 : Bytes → Nat → Except CodecError Bytes := decodeText crates .base58

end Codecs

section Exact

variable {crates : Crates} {codec : TextCodec} {bytes encoded : Bytes} {maxDecodedLen : Nat}

/-- A hundred bytes count for less than 138 base58 digits. -/
theorem length_base58_lt (bytes : Bytes) :
    100 * (standardText .base58 bytes).length < 138 * bytes.length + 100 := by
  have hlt : 100 * (convert 256 58 (byteValues bytes)).length < 138 * (byteValues bytes).length + 100 :=
    length_convert_lt (by decide) (by decide) (by decide) (by norm_num) (byteValues_lt bytes)
  rwa [length_byteValues, ← length_map (f := base58Symbols.symbol)] at hlt

/-- The gate lets every text of bytes through that are not too long. -/
theorem length_encode_le (hlength : bytes.length ≤ maxDecodedLen) (hmax : maxDecodedLen ≤ 2 ^ 32) :
    (crates.encode codec bytes).length ≤ maxEncodedLenForDecodedLen codec maxDecodedLen := by
  rw [crates.encode_eq]
  cases codec with
  | base64url =>
      rw [standardText, Base64Url.length_encode, Base64Url.encodedLength, maxEncodedLenForDecodedLen,
        maxBase64urlEncodedLenForDecodedLen, divCeil, saturatingMul, usizeMax]
      omega
  | crockfordBase32 =>
      rw [standardText, Alphabet.length_spelled, length_toGroups, groupCount, maxEncodedLenForDecodedLen,
        maxCrockfordBase32EncodedLenForDecodedLen, divCeil, saturatingMul, usizeMax]
      omega
  | base58 =>
      have hlt := length_base58_lt bytes
      rw [maxEncodedLenForDecodedLen, maxBase58EncodedLenForDecodedLen,
        saturatingAdd, divCeil, saturatingMul, usizeMax]
      omega

theorem decodeText_encode (hlength : bytes.length ≤ maxDecodedLen) (hmax : maxDecodedLen ≤ 2 ^ 32) :
    decodeText crates codec (crates.encode codec bytes) maxDecodedLen = .ok bytes := by
  rw [decodeText, validateEncodedLen, if_neg (Nat.not_lt.2 (length_encode_le hlength hmax)), ok_bind,
    crates.decode_encode]
  simp only [validateDecodedLen, validateCanonicalEncoding]
  rw [if_neg (Nat.not_lt.2 hlength), ok_bind, if_neg (not_not.2 rfl), ok_bind]
  rfl

theorem decodeText_eq_ok_iff (hmax : maxDecodedLen ≤ 2 ^ 32) :
    decodeText crates codec encoded maxDecodedLen = .ok bytes ↔
      encoded = crates.encode codec bytes ∧ bytes.length ≤ maxDecodedLen := by
  constructor
  · intro h
    rw [decodeText, validateEncodedLen] at h
    by_cases hlong : maxEncodedLenForDecodedLen codec maxDecodedLen < encoded.length
    · rw [if_pos hlong] at h
      cases h
    rw [if_neg hlong, ok_bind] at h
    cases hread : crates.decode codec encoded with
    | none =>
        rw [hread] at h
        cases h
    | some decoded =>
        rw [hread] at h
        simp only [validateDecodedLen, validateCanonicalEncoding] at h
        by_cases hlength : maxDecodedLen < decoded.length
        · rw [if_pos hlength] at h
          cases h
        rw [if_neg hlength, ok_bind] at h
        by_cases hcanonical : encoded = crates.encode codec decoded
        · rw [if_neg (not_not.2 hcanonical)] at h
          cases h
          exact ⟨hcanonical, Nat.not_lt.1 hlength⟩
        · rw [if_pos hcanonical] at h
          cases h
  · rintro ⟨rfl, hlength⟩
    exact decodeText_encode hlength hmax

/-- The texts that are read for a container are those of its bytes, and each is read as the bytes it is the text of. -/
theorem textCodecs_exact (crates : Crates) (codec : TextCodec) (container : EdgeByteContainer) :
    (∀ bytes, bytes.length ≤ container.maxDecodedLen →
      decodeText crates codec (crates.encode codec bytes) container.maxDecodedLen = .ok bytes) ∧
    ∀ encoded bytes, decodeText crates codec encoded container.maxDecodedLen = .ok bytes ↔
      encoded = crates.encode codec bytes ∧ bytes.length ≤ container.maxDecodedLen :=
  have hmax := container.maxDecodedLen_le
  ⟨fun _ hlength => decodeText_encode hlength hmax, fun _ _ => decodeText_eq_ok_iff hmax⟩

end Exact

section Base64

variable (crates : Crates) {bytes : Bytes}

/-- The text of bytes, in characters. -/
def toBase64Url (bytes : Bytes) : Text := (encodeBase64url crates bytes).map Char.ofUInt8

theorem isSymbol_of_mem_encodeBase64url {b : UInt8} (h : b ∈ encodeBase64url crates bytes) :
    Base64Url.IsSymbol b := by
  rw [encodeBase64url, crates.encode_eq] at h
  exact Base64Url.isSymbol_of_mem_encode h

theorem utf8_toBase64Url (bytes : Bytes) :
    Utf8Text.utf8 (toBase64Url crates bytes) = encodeBase64url crates bytes :=
  Utf8Text.utf8_map_ofUInt8 fun _ hb =>
    Base64Url.isSymbol_lt (isSymbol_of_mem_encodeBase64url crates hb)

theorem length_toBase64Url (bytes : Bytes) :
    (toBase64Url crates bytes).length = (bytes.length * 4 + 2) / 3 := by
  rw [toBase64Url, length_map, encodeBase64url, crates.encode_eq]
  exact Base64Url.length_encode bytes

theorem decodeBase64url_toBase64Url {maxDecodedLen : Nat} (hlength : bytes.length ≤ maxDecodedLen)
    (hmax : maxDecodedLen ≤ 2 ^ 32) :
    decodeBase64url crates (Utf8Text.utf8 (toBase64Url crates bytes)) maxDecodedLen = .ok bytes := by
  rw [utf8_toBase64Url]
  exact decodeText_encode hlength hmax

end Base64

end Paranoid.TextCodecs
