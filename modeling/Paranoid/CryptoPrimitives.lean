import Paranoid.ByteCodecs

namespace Paranoid.CryptoPrimitives

open ByteCodecs

def keySize : Nat := 32

abbrev Key32 : Type := FixedBytes keySize

def xchacha20Poly1305NonceSize : Nat := 24

def aes256GcmSivNonceSize : Nat := 12

def tagSize : Nat := 16

/-- A cipher of the crates. It may refuse to encrypt, and refuses to decrypt what it does
not authenticate. -/
structure Aead (nonceSize : Nat) where
  encrypt : Key32 → FixedBytes nonceSize → (associatedData plaintext : Bytes) → Option Bytes
  decrypt : Key32 → FixedBytes nonceSize → (associatedData ciphertext : Bytes) → Option Bytes

/-- What is documented of a cipher: it decrypts what it encrypted, and a ciphertext is the
tag longer than its plaintext. -/
structure Aead.Correct {nonceSize : Nat} (aead : Aead nonceSize) : Prop where
  decrypts : ∀ {key nonce associatedData plaintext ciphertext},
    aead.encrypt key nonce associatedData plaintext = some ciphertext →
      aead.decrypt key nonce associatedData ciphertext = some plaintext
  length : ∀ {key nonce associatedData plaintext ciphertext},
    aead.encrypt key nonce associatedData plaintext = some ciphertext →
      ciphertext.length = plaintext.length + tagSize

/-- One call to encrypt. -/
structure Query (nonceSize : Nat) where
  key : Key32
  nonce : FixedBytes nonceSize
  associatedData : Bytes
  plaintext : Bytes
  deriving DecidableEq

def Aead.ciphertext {nonceSize : Nat} (aead : Aead nonceSize) (query : Query nonceSize) :
    Option Bytes :=
  aead.encrypt query.key query.nonce query.associatedData query.plaintext

/-- A cipher that decrypts nothing but what was encrypted, and only with the key and the
associated data that it was encrypted with. -/
structure Aead.Ideal {nonceSize : Nat} (aead : Aead nonceSize) (made : Query nonceSize → Prop) :
    Prop where
  decrypts : ∀ {key nonce associatedData ciphertext plaintext},
    aead.decrypt key nonce associatedData ciphertext = some plaintext ↔
      made ⟨key, nonce, associatedData, plaintext⟩ ∧
        aead.ciphertext ⟨key, nonce, associatedData, plaintext⟩ = some ciphertext
  binds : ∀ {query other ciphertext}, made query → made other → aead.ciphertext query = some ciphertext →
    aead.ciphertext other = some ciphertext →
      query.key = other.key ∧ query.associatedData = other.associatedData
  length : ∀ {query ciphertext}, aead.ciphertext query = some ciphertext →
    ciphertext.length = query.plaintext.length + tagSize

/-- Random bytes that the caller injects, call by call. -/
abbrev FillRandom (ε : Type) : Type := (call n : Nat) → Except ε (FixedBytes n)

end Paranoid.CryptoPrimitives
