import Mathlib.Data.Nat.Log
import Paranoid.CryptoPrimitives
import Paranoid.Postgres

namespace Paranoid.EnvelopeModel

open ByteCodecs CryptoPrimitives

def maxPlaintextSize : Nat := 2 ^ 20

def maxAssociatedDataSize : Nat := 2 ^ 20

def magic : Bytes := [0x50, 0x41, 0x52, 0x41]

def version : UInt8 := 1

def suiteParanoidV1 : UInt8 := 1

def saltSize : Nat := 32

def trueLengthSize : Nat := 8

def minPaddedPayloadSize : Nat := 256

def maxPaddedPayloadSize : Nat := 2 ^ 21

def cascadeTagOverhead : Nat := tagSize + tagSize

def hkdfSaltOffset : Nat := magic.length + 2

def blake3SaltOffset : Nat := hkdfSaltOffset + saltSize

def xchachaNonceOffset : Nat := blake3SaltOffset + saltSize

def aesGcmSivNonceOffset : Nat := xchachaNonceOffset + xchacha20Poly1305NonceSize

def headerSize : Nat := aesGcmSivNonceOffset + aes256GcmSivNonceSize

def minEnvelopeSize : Nat := headerSize + (minPaddedPayloadSize + cascadeTagOverhead)

def maxEnvelopeSize : Nat := headerSize + (maxPaddedPayloadSize + cascadeTagOverhead)

def maxPurposeLen : Nat := 255

def maxKeysetKeys : Nat := 16

def utf8 (text : String) : Bytes := text.toUTF8.toList

def hkdfInnerKeyInfo : Bytes := utf8 "paranoid/v1/hkdf-sha256/xchacha20poly1305/inner"

def blake3OuterKeyContext : String := "paranoid/v1/blake3/aes-256-gcm-siv/outer"

def keysetHkdfDerivationSalt : Bytes := utf8 "paranoid/v1/purpose-keyset/hkdf-sha256/salt"

def keysetHkdfDerivationInfoPrefix : Bytes := utf8 "paranoid/v1/purpose-keyset/hkdf-sha256/info/"

def keysetBlake3DerivationContext : String := "paranoid/v1/purpose-keyset/blake3"

def childHkdfDerivationSalt : Bytes := utf8 "paranoid/v1/child-keyset/hkdf-sha256/salt"

def childHkdfDerivationInfoPrefix : Bytes := utf8 "paranoid/v1/child-keyset/hkdf-sha256/info/"

def childBlake3DerivationContext : String := "paranoid/v1/child-keyset/blake3"

inductive CryptoError
  | emptyKeyset
  | tooManyKeys (max : Nat)
  | duplicateKey (index : Nat)
  | emptyPurpose
  | purposeTooLong (actual max : Nat)
  | invalidPurposeByte (index : Nat) (byte : UInt8)
  | plaintextTooLarge (actual max : Nat)
  | associatedDataTooLarge (actual max : Nat)
  | emptyEnvelope
  | envelopeTooLarge (actual max : Nat)
  | envelopeTooShort (actual min : Nat)
  | invalidMagic
  | unsupportedVersion (version : UInt8)
  | unsupportedSuite (suite : UInt8)
  | invalidEnvelopeLength (actual : Nat)
  | randomFillFailed
  | encryptionFailed
  | decryptionFailed
  deriving DecidableEq

/-- What a key is derived from. -/
inductive KdfInput
  | hkdfSha256 (key : Key32) (salt info : Bytes)
  | blake3 (context : String) (keyMaterial : Bytes)
  deriving DecidableEq

abbrev Kdf : Type := KdfInput → Key32

structure ParanoidKey where
  hkdfSha256 : Key32
  blake3 : Key32
  deriving DecidableEq

structure Keyset where
  purpose : Bytes
  latestFirstKeys : List ParanoidKey
  deriving DecidableEq

section Keysets

variable (kdf : Kdf)

/-- On the bytes of a purpose string. -/
def validatePurpose (purpose : Bytes) : Except CryptoError Unit := do
  if purpose.length = 0 then throw .emptyPurpose
  if maxPurposeLen < purpose.length then throw (.purposeTooLong purpose.length maxPurposeLen)
  match purpose.zipIdx.find? fun (byte, _) => byte = 0x2f ∨ byte < 0x21 ∨ 0x7e < byte with
  | some (byte, index) => throw (.invalidPurposeByte index byte)
  | none => return ()

/-- The first key that stands further ahead as well. -/
def validateLatestFirstKeys (latestFirstKeys : List Key32) : Except CryptoError Unit := do
  if latestFirstKeys = [] then throw .emptyKeyset
  match (List.range latestFirstKeys.length).find? fun index =>
      (latestFirstKeys.take index).contains
        (latestFirstKeys.getD index ⟨List.replicate keySize 0, rfl⟩) with
  | some index => throw (.duplicateKey index)
  | none => return ()

def lengthPrefixedBytes (bytes : Bytes) : Bytes := beBytes 2 bytes.length ++ bytes

def hkdfInput (parentKey : Key32) (salt infoPrefix derivationContext : Bytes) : KdfInput :=
  .hkdfSha256 parentKey salt (infoPrefix ++ derivationContext)

def blake3Input (parentKey : Key32) (context : String) (derivationContext : Bytes) : KdfInput :=
  .blake3 context (parentKey.val ++ derivationContext)

def workingKeyInputs (inputKey : Key32) (purpose : Bytes) : KdfInput × KdfInput :=
  (hkdfInput inputKey keysetHkdfDerivationSalt
    keysetHkdfDerivationInfoPrefix (lengthPrefixedBytes purpose),
    blake3Input inputKey keysetBlake3DerivationContext (lengthPrefixedBytes purpose))

def deriveKey (inputs : KdfInput × KdfInput) : ParanoidKey := ⟨kdf inputs.1, kdf inputs.2⟩

def deriveWorkingKeyFromKey32 (inputKey : Key32) (purpose : Bytes) : ParanoidKey :=
  deriveKey kdf (workingKeyInputs inputKey purpose)

def childKeyInputs (parentKey : ParanoidKey) (parentPurpose childPurpose : Bytes) :
    KdfInput × KdfInput :=
  (hkdfInput parentKey.hkdfSha256 childHkdfDerivationSalt childHkdfDerivationInfoPrefix
      (lengthPrefixedBytes parentPurpose ++ lengthPrefixedBytes childPurpose),
    blake3Input parentKey.blake3 childBlake3DerivationContext
      (lengthPrefixedBytes parentPurpose ++ lengthPrefixedBytes childPurpose))

def deriveChildKey (parentKey : ParanoidKey) (parentPurpose childPurpose : Bytes) : ParanoidKey :=
  deriveKey kdf (childKeyInputs parentKey parentPurpose childPurpose)

def deriveKeysetFromLatestFirstKeys (latestFirstKeys : List Key32) (purpose : Bytes) :
    Except CryptoError Keyset := do
  if maxKeysetKeys < latestFirstKeys.length then throw (.tooManyKeys maxKeysetKeys)
  validateLatestFirstKeys latestFirstKeys
  validatePurpose purpose
  return ⟨purpose, latestFirstKeys.map fun key => deriveWorkingKeyFromKey32 kdf key purpose⟩

def purposeForChild (purpose childPurpose : Bytes) : Except CryptoError Bytes := do
  validatePurpose childPurpose
  if maxPurposeLen < purpose.length + 1 + childPurpose.length then
    throw (.purposeTooLong (purpose.length + 1 + childPurpose.length) maxPurposeLen)
  return purpose ++ 0x2f :: childPurpose

def Keyset.deriveChildKeyset (keyset : Keyset) (purpose : Bytes) : Except CryptoError Keyset := do
  let childPurpose ← purposeForChild keyset.purpose purpose
  return ⟨childPurpose,
    keyset.latestFirstKeys.map fun key => deriveChildKey kdf key keyset.purpose purpose⟩

end Keysets

section Envelopes

abbrev XChaCha20Poly1305 : Type := Aead xchacha20Poly1305NonceSize

abbrev Aes256GcmSiv : Type := Aead aes256GcmSivNonceSize

variable (kdf : Kdf) (xchacha : XChaCha20Poly1305) (aesGcmSiv : Aes256GcmSiv)

def encrypt {nonceSize : Nat} (aead : Aead nonceSize) (key : Key32) (nonce : FixedBytes nonceSize)
    (associatedData plaintext : Bytes) : Except CryptoError Bytes :=
  match aead.encrypt key nonce associatedData plaintext with
  | some ciphertext => .ok ciphertext
  | none => .error .encryptionFailed

def decrypt {nonceSize : Nat} (aead : Aead nonceSize) (key : Key32) (nonce : FixedBytes nonceSize)
    (associatedData ciphertext : Bytes) : Except CryptoError Bytes :=
  match aead.decrypt key nonce associatedData ciphertext with
  | some plaintext => .ok plaintext
  | none => .error .decryptionFailed

/-- The least power of two that is not less. -/
def nextPowerOfTwo (n : Nat) : Nat := 2 ^ Nat.clog 2 n

def isPowerOfTwo (n : Nat) : Bool := n ≠ 0 && 2 ^ n.log2 = n

def paddedPayloadLenForPlaintextLen (plaintextLen : Nat) : Except CryptoError Nat :=
  if maxPlaintextSize < plaintextLen then .error (.plaintextTooLarge plaintextLen maxPlaintextSize)
  else .ok (max (nextPowerOfTwo (trueLengthSize + plaintextLen)) minPaddedPayloadSize)

def isValidPaddedPayloadLen (len : Nat) : Bool :=
  minPaddedPayloadSize ≤ len && len ≤ maxPaddedPayloadSize && isPowerOfTwo len

/-- The random parts of an envelope, which stand in its header. -/
structure HeaderFields where
  hkdfSalt : FixedBytes saltSize
  blake3Salt : FixedBytes saltSize
  xchachaNonce : FixedBytes xchacha20Poly1305NonceSize
  aesGcmSivNonce : FixedBytes aes256GcmSivNonceSize
  deriving DecidableEq

def buildHeader (fields : HeaderFields) : Bytes :=
  magic ++ (version :: suiteParanoidV1 :: (fields.hkdfSalt.val ++ (fields.blake3Salt.val ++
    (fields.xchachaNonce.val ++ fields.aesGcmSivNonce.val))))

def buildLayerAssociatedData (header associatedData : Bytes) : Except CryptoError Bytes :=
  if maxAssociatedDataSize < associatedData.length then
    .error (.associatedDataTooLarge associatedData.length maxAssociatedDataSize)
  else .ok (header ++ associatedData)

def innerKeyInput (key : ParanoidKey) (hkdfSalt : FixedBytes saltSize) : KdfInput :=
  .hkdfSha256 key.hkdfSha256 hkdfSalt.val hkdfInnerKeyInfo

def outerKeyInput (key : ParanoidKey) (blake3Salt : FixedBytes saltSize) : KdfInput :=
  .blake3 blake3OuterKeyContext (key.blake3.val ++ blake3Salt.val)

/-- The plaintext behind its length, and random bytes up to the padded length. -/
def paddedPayload (plaintext random : Bytes) : Bytes :=
  leBytes trueLengthSize plaintext.length ++
    (plaintext ++ random.drop (trueLengthSize + plaintext.length))

/-- What is done with the random bytes once they are drawn. -/
def sealPayload (payload associatedData : Bytes) (key : ParanoidKey) (fields : HeaderFields) :
    Except CryptoError Bytes := do
  let header := buildHeader fields
  let associatedDataForLayers ← buildLayerAssociatedData header associatedData
  let xchachaKey := kdf (innerKeyInput key fields.hkdfSalt)
  let aesGcmSivKey := kdf (outerKeyInput key fields.blake3Salt)
  let innerCiphertext ← encrypt xchacha xchachaKey fields.xchachaNonce associatedDataForLayers payload
  let ciphertext ← encrypt aesGcmSiv aesGcmSivKey
    fields.aesGcmSivNonce associatedDataForLayers innerCiphertext
  return header ++ ciphertext

/-- The padding and the header's random parts, in the order in which they are drawn. -/
def drawRandom (paddedPayloadLen : Nat) (fillRandom : FillRandom CryptoError) :
    Except CryptoError (FixedBytes paddedPayloadLen × HeaderFields) := do
  let random ← fillRandom 0 paddedPayloadLen
  let hkdfSalt ← fillRandom 1 saltSize
  let blake3Salt ← fillRandom 2 saltSize
  let xchachaNonce ← fillRandom 3 xchacha20Poly1305NonceSize
  let aesGcmSivNonce ← fillRandom 4 aes256GcmSivNonceSize
  return (random, ⟨hkdfSalt, blake3Salt, xchachaNonce, aesGcmSivNonce⟩)

def encryptWithKeyAssociatedDataAndFill (plaintext associatedData : Bytes) (key : ParanoidKey)
    (fillRandom : FillRandom CryptoError) : Except CryptoError Bytes := do
  let paddedPayloadLen ← paddedPayloadLenForPlaintextLen plaintext.length
  let (random, fields) ← drawRandom paddedPayloadLen fillRandom
  sealPayload kdf xchacha aesGcmSiv (paddedPayload plaintext random.val) associatedData key fields

structure ParsedEnvelope where
  header : Bytes
  fields : HeaderFields
  ciphertext : Bytes

def validateEnvelopeSize (envelope : Bytes) : Except CryptoError Unit := do
  if envelope.length = 0 then throw .emptyEnvelope
  if maxEnvelopeSize < envelope.length then throw (.envelopeTooLarge envelope.length maxEnvelopeSize)

/-- The parts of the header, each of its size. -/
def parseHeaderFields (envelope : Bytes) : Option HeaderFields := do
  let hkdfSalt ← FixedBytes.fromBytes saltSize (slice envelope hkdfSaltOffset blake3SaltOffset)
  let blake3Salt ← FixedBytes.fromBytes saltSize (slice envelope blake3SaltOffset xchachaNonceOffset)
  let xchachaNonce ← FixedBytes.fromBytes xchacha20Poly1305NonceSize
    (slice envelope xchachaNonceOffset aesGcmSivNonceOffset)
  let aesGcmSivNonce ← FixedBytes.fromBytes aes256GcmSivNonceSize
    (slice envelope aesGcmSivNonceOffset headerSize)
  return ⟨hkdfSalt, blake3Salt, xchachaNonce, aesGcmSivNonce⟩

def ParsedEnvelope.parse (envelope : Bytes) : Except CryptoError ParsedEnvelope := do
  if envelope.length < minEnvelopeSize then throw (.envelopeTooShort envelope.length minEnvelopeSize)
  if slice envelope 0 magic.length ≠ magic then throw .invalidMagic
  if envelope.getD magic.length 0 ≠ version then throw (.unsupportedVersion (envelope.getD magic.length 0))
  if envelope.getD (magic.length + 1) 0 ≠ suiteParanoidV1 then
    throw (.unsupportedSuite (envelope.getD (magic.length + 1) 0))
  if envelope.length - headerSize < minPaddedPayloadSize + cascadeTagOverhead then
    throw (.envelopeTooShort envelope.length minEnvelopeSize)
  if !isValidPaddedPayloadLen (envelope.length - headerSize - cascadeTagOverhead) then
    throw (.invalidEnvelopeLength envelope.length)
  match parseHeaderFields envelope with
  | none => throw (.invalidEnvelopeLength envelope.length)
  | some fields => return ⟨slice envelope 0 headerSize, fields, envelope.drop headerSize⟩

def plaintextFromPaddedPayload (payload : Bytes) : Except CryptoError Bytes := do
  if !isValidPaddedPayloadLen payload.length then throw .decryptionFailed
  let plaintextLen := ofLeBytes (slice payload 0 trueLengthSize)
  if maxPlaintextSize < plaintextLen then throw .decryptionFailed
  if paddedPayloadLenForPlaintextLen plaintextLen ≠ .ok payload.length then throw .decryptionFailed
  return slice payload trueLengthSize (trueLengthSize + plaintextLen)

def decryptParsedWithKey (parsed : ParsedEnvelope)
    (associatedDataForLayers : Bytes) (key : ParanoidKey) :
    Except CryptoError Bytes := do
  let xchachaKey := kdf (innerKeyInput key parsed.fields.hkdfSalt)
  let aesGcmSivKey := kdf (outerKeyInput key parsed.fields.blake3Salt)
  let innerCiphertext ← decrypt aesGcmSiv aesGcmSivKey
    parsed.fields.aesGcmSivNonce associatedDataForLayers
    parsed.ciphertext
  let payload ← decrypt xchacha xchachaKey parsed.fields.xchachaNonce
    associatedDataForLayers innerCiphertext
  plaintextFromPaddedPayload payload

def Keyset.latestKey (keyset : Keyset) : Option ParanoidKey := keyset.latestFirstKeys.head?

/-- Without a key the source stops at an index out of range; no keyset is built so. -/
def encryptBytesWithAssociatedData (keyset : Keyset) (plaintext associatedData : Bytes)
    (fillRandom : FillRandom CryptoError) : Except CryptoError Bytes :=
  match keyset.latestKey with
  | some key => encryptWithKeyAssociatedDataAndFill kdf
      xchacha aesGcmSiv plaintext associatedData key fillRandom
  | none => .error .emptyKeyset

/-- Every key is tried, and the first plaintext is kept. -/
def decryptBytesWithAssociatedData (keyset : Keyset) (envelope associatedData : Bytes) :
    Except CryptoError Bytes := do
  validateEnvelopeSize envelope
  let parsed ← ParsedEnvelope.parse envelope
  let associatedDataForLayers ← buildLayerAssociatedData parsed.header associatedData
  match keyset.latestFirstKeys.findSome? fun key =>
      (decryptParsedWithKey kdf xchacha aesGcmSiv parsed associatedDataForLayers key).toOption with
  | some plaintext => return plaintext
  | none => throw .decryptionFailed

end Envelopes

end Paranoid.EnvelopeModel
