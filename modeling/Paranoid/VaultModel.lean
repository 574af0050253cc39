import Mathlib.Data.Char
import Mathlib.Data.List.Lex
import Paranoid.EnvelopeModel
import Paranoid.PasswordSealedKey
import Paranoid.TextCodecs

namespace Paranoid.VaultModel

open ByteCodecs CryptoPrimitives
open EnvelopeModel hiding utf8
open TextCodecs (decodeBase64url toBase64Url)
open Utf8Text (Text utf8)

def vaultVersion : UInt32 := 1

def encryptedEntryVersion : UInt32 := 1

def kdfAlgorithmArgon2id : Text := ['a', 'r', 'g', 'o', 'n', '2', 'i', 'd']

def argon2Version0x13 : UInt32 := 19

def storedPasswordKdfMaxMemoryCostKib : Nat := 256 * 1024

def storedPasswordKdfMaxIterations : Nat := 10

def maxVaultFileBytes : Nat := 64 * 1024 * 1024

def vaultIdRandomBytes : Nat := 16

def maxByteContainerSize : Nat := 2 ^ 20

def localEnvVaultKeysetPurpose : Bytes := EnvelopeModel.utf8 "paranoid.local-env-vault.v1"

def localEnvVaultEntryAssociatedDataDomain : Bytes := EnvelopeModel.utf8 "paranoid.local-env-vault.v1.entry"

def localEnvVaultPasswordCheckAssociatedDataDomain : Bytes :=
  EnvelopeModel.utf8 "paranoid.local-env-vault.v1.password-check"

def passwordCheckPlaintext : Bytes := EnvelopeModel.utf8 "paranoid.local-env-vault.v1.password-check"

inductive Error
  | vaultMissing
  | vaultFileTooLarge (actual max : Nat)
  | json
  | io
  | unsupportedVaultVersion (version : UInt32)
  | unsupportedEncryptedEntryVersion (version : UInt32)
  | invalidVaultIdLength (actual : Nat)
  | unsupportedPasswordKdf
  | passwordKdfMemoryCostTooLarge (actual max : Nat)
  | passwordKdfIterationsTooMany (actual max : Nat)
  | invalidEnvVarName (name : Text)
  | passwordRejected
  | unknownProfile (name : Text)
  | missingProfileValues
  | codec (source : TextCodecs.CodecError)
  | envelope (source : CryptoError)
  | password (source : PasswordSealedKey.CryptoError)
  deriving DecidableEq

/-- A name of the grammar `[A-Z_][A-Z0-9_]*`. -/
def isEnvVarName : Bytes → Bool
  | [] => false
  | first :: rest =>
      (first = 95 || 65 ≤ first && first ≤ 90) &&
        rest.all fun byte => byte = 95 || 65 ≤ byte && byte ≤ 90 || 48 ≤ byte && byte ≤ 57

structure EnvVarName where
  text : Text
  valid : isEnvVarName (utf8 text) = true
  deriving DecidableEq

def EnvVarName.new (name : Text) : Except Error EnvVarName :=
  if h : isEnvVarName (utf8 name) = true then .ok ⟨name, h⟩ else .error (.invalidEnvVarName name)

structure StoredPasswordKdf where
  algorithm : Text
  version : UInt32
  memoryCostKib : UInt32
  iterations : UInt32
  parallelism : UInt32
  salt : Text
  deriving DecidableEq

structure EncryptedEnvEntry where
  version : UInt32
  updatedAtUnixSeconds : UInt64
  ciphertext : Text
  deriving DecidableEq

/-- The entry of a name in place of another of the name, or between those before and after. -/
def insertEntry (name : Text) (entry : EncryptedEnvEntry) :
    List (Text × EncryptedEnvEntry) → List (Text × EncryptedEnvEntry)
  | [] => [(name, entry)]
  | (other, stored) :: rest =>
      if name = other then (name, entry) :: rest
      else if name < other then (name, entry) :: (other, stored) :: rest
      else (other, stored) :: insertEntry name entry rest

theorem mem_insertEntry {name : Text} {entry : EncryptedEnvEntry}
    {entries : List (Text × EncryptedEnvEntry)} {pair : Text × EncryptedEnvEntry}
    (h : pair ∈ insertEntry name entry entries) : pair = (name, entry) ∨ pair ∈ entries := by
  induction entries with
  | nil => exact .inl (List.mem_singleton.1 h)
  | cons stored rest ih =>
      rw [insertEntry] at h
      split at h
      · exact (List.mem_cons.1 h).imp id (List.mem_cons_of_mem _)
      · split at h
        · exact List.mem_cons.1 h
        · rcases List.mem_cons.1 h with rfl | h
          · exact .inr List.mem_cons_self
          · exact (ih h).imp id (List.mem_cons_of_mem _)

/-- Each name stands once, and before the names behind it. -/
def Ascending (entries : List (Text × EncryptedEnvEntry)) : Prop :=
  entries.Pairwise fun a b => a.1 < b.1

theorem ascending_insertEntry {name : Text} {entry : EncryptedEnvEntry}
    {entries : List (Text × EncryptedEnvEntry)} (h : Ascending entries) :
    Ascending (insertEntry name entry entries) := by
  induction entries with
  | nil => exact List.pairwise_singleton _ _
  | cons stored rest ih =>
      obtain ⟨other, value⟩ := stored
      obtain ⟨hfirst, hrest⟩ := List.pairwise_cons.1 h
      rw [insertEntry]
      by_cases hname : name = other
      · rw [if_pos hname]
        exact List.pairwise_cons.2 ⟨fun pair hpair => hname ▸ hfirst pair hpair, hrest⟩
      rw [if_neg hname]
      by_cases hless : name < other
      · rw [if_pos hless]
        refine List.pairwise_cons.2 ⟨fun pair hpair => ?_, h⟩
        rcases List.mem_cons.1 hpair with rfl | hpair
        · exact hless
        · exact hless.trans (hfirst pair hpair)
      · rw [if_neg hless]
        refine List.pairwise_cons.2 ⟨fun pair hpair => ?_, ih hrest⟩
        rcases mem_insertEntry hpair with rfl | hpair
        · exact lt_of_le_of_ne (not_lt.1 hless) (Ne.symm hname)
        · exact hfirst pair hpair

/-- The entries of a vault, in the order of their names. -/
structure EncryptedEnv where
  entries : List (Text × EncryptedEnvEntry)
  ascending : Ascending entries
  deriving DecidableEq

namespace EncryptedEnv

variable (env : EncryptedEnv)

def new : EncryptedEnv := ⟨[], List.Pairwise.nil⟩

def get (name : Text) : Option EncryptedEnvEntry := env.entries.lookup name

def containsKey (name : Text) : Bool := (env.get name).isSome

def len : Nat := env.entries.length

def insert (name : Text) (entry : EncryptedEnvEntry) : EncryptedEnv :=
  ⟨insertEntry name entry env.entries, ascending_insertEntry env.ascending⟩

def retain (keep : Text → Bool) : EncryptedEnv :=
  ⟨env.entries.filter fun entry => keep entry.1, env.ascending.filter _⟩

end EncryptedEnv

structure VaultFile where
  version : UInt32
  vaultId : Text
  createdAtUnixSeconds : UInt64
  updatedAtUnixSeconds : UInt64
  kdf : StoredPasswordKdf
  passwordCheck : Text
  encryptedEnv : EncryptedEnv
  deriving DecidableEq

/-- What the vault takes from other crates. -/
structure Crates where
  argon2 : PasswordSealedKey.Argon2
  kdf : Kdf
  xchacha : XChaCha20Poly1305
  aesGcmSiv : Aes256GcmSiv
  texts : TextCodecs.Crates
  toWriterPretty : VaultFile → Bytes
  fromSlice : Bytes → Option VaultFile

/-- What a write leaves in the file. -/
def fileBytes (crates : Crates) (vault : VaultFile) : Bytes := crates.toWriterPretty vault ++ [10]

/-- What is documented of them: a cipher decrypts what it encrypted, and serde_json reads
what it wrote. -/
structure Crates.Faithful (crates : Crates) : Prop where
  xchacha : crates.xchacha.Correct
  aesGcmSiv : crates.aesGcmSiv.Correct
  fromSlice : ∀ vault, crates.fromSlice (fileBytes crates vault) = some vault

section Validation

variable (crates : Crates)

open PasswordSealedKey (PasswordKdfParams)

def rejectPasswordKdfParamsAboveLocalBounds (params : PasswordKdfParams) : Except Error Unit := do
  if storedPasswordKdfMaxMemoryCostKib < params.memoryCostKib.toNat then
    throw (.passwordKdfMemoryCostTooLarge params.memoryCostKib.toNat storedPasswordKdfMaxMemoryCostKib)
  if storedPasswordKdfMaxIterations < params.iterations.toNat then
    throw (.passwordKdfIterationsTooMany params.iterations.toNat storedPasswordKdfMaxIterations)

def StoredPasswordKdf.params (kdf : StoredPasswordKdf) : Except Error PasswordKdfParams := do
  if kdf.algorithm ≠ kdfAlgorithmArgon2id ∨ kdf.version ≠ argon2Version0x13 then throw .unsupportedPasswordKdf
  let params ← (PasswordKdfParams.new crates.argon2 kdf.memoryCostKib
    kdf.iterations kdf.parallelism).mapError .password
  rejectPasswordKdfParamsAboveLocalBounds params
  return params

def StoredPasswordKdf.saltBytes (kdf : StoredPasswordKdf) :
    Except Error (FixedBytes PasswordSealedKey.passwordKdfSaltSize) := do
  let bytes ← (decodeBase64url crates.texts (utf8 kdf.salt) maxByteContainerSize).mapError .codec
  match FixedBytes.fromBytes PasswordSealedKey.passwordKdfSaltSize bytes with
  | some salt => return salt
  | none => throw (.password (.invalidPasswordKdfSaltLength bytes.length))

/-- The envelope that a text stands for. -/
def decodeEncrypted (encoded : Text) : Except Error Bytes := do
  let envelope ← (decodeBase64url crates.texts (utf8 encoded) maxEnvelopeSize).mapError .codec
  (validateEnvelopeSize envelope).mapError .envelope
  let _ ← (ParsedEnvelope.parse envelope).mapError .envelope
  return envelope

def validateEncryptedSecretEnvelope (encoded : Text) : Except Error Unit := do
  let _ ← decodeEncrypted crates encoded
  return ()

def validateVaultId (vaultId : Text) : Except Error Unit := do
  let bytes ← (decodeBase64url crates.texts (utf8 vaultId) maxByteContainerSize).mapError .codec
  if bytes.length ≠ vaultIdRandomBytes then throw (.invalidVaultIdLength bytes.length)

def validateEntry (entry : Text × EncryptedEnvEntry) : Except Error Unit := do
  let _ ← EnvVarName.new entry.1
  if entry.2.version ≠ encryptedEntryVersion then throw (.unsupportedEncryptedEntryVersion entry.2.version)
  validateEncryptedSecretEnvelope crates entry.2.ciphertext

def validateEntries : List (Text × EncryptedEnvEntry) → Except Error Unit
  | [] => .ok ()
  | entry :: rest => do
      validateEntry crates entry
      validateEntries rest

def validateVault (vault : VaultFile) : Except Error Unit := do
  if vault.version ≠ vaultVersion then throw (.unsupportedVaultVersion vault.version)
  validateVaultId crates vault.vaultId
  let _ ← vault.kdf.params crates
  let _ ← vault.kdf.saltBytes crates
  validateEncryptedSecretEnvelope crates vault.passwordCheck
  validateEntries crates vault.encryptedEnv.entries

def rejectOversizedVaultFile (file : Bytes) : Except Error Unit :=
  if maxVaultFileBytes < file.length then .error (.vaultFileTooLarge file.length maxVaultFileBytes) else .ok ()

def readVault (file : Option Bytes) : Except Error VaultFile :=
  match file with
  | none => throw .vaultMissing
  | some bytes => do
      rejectOversizedVaultFile bytes
      match crates.fromSlice bytes with
      | none => throw .json
      | some vault =>
          validateVault crates vault
          return vault

end Validation

section AssociatedData

/-- A length of 32 bits, and the bytes. -/
def pushAdPart (part : Bytes) : Bytes := beBytes 4 part.length ++ part

def entryAssociatedData (vault : VaultFile) (name : EnvVarName) (entry : EncryptedEnvEntry) : Bytes :=
  pushAdPart localEnvVaultEntryAssociatedDataDomain ++
    (beBytes 4 vault.version.toNat ++ (pushAdPart (utf8 vault.vaultId) ++
    (pushAdPart (utf8 name.text) ++ beBytes 4 entry.version.toNat)))

def passwordCheckAssociatedData (vault : VaultFile) : Bytes :=
  pushAdPart localEnvVaultPasswordCheckAssociatedDataDomain ++
    (beBytes 4 vault.version.toNat ++ pushAdPart (utf8 vault.vaultId))

end AssociatedData

section Values

open PasswordSealedKey (PasswordKdfParams)

variable (crates : Crates)

def deriveVaultKeyset (vault : VaultFile) (password : Bytes) : Except Error Keyset := do
  let salt ← vault.kdf.saltBytes crates
  let params ← vault.kdf.params crates
  let key ← (PasswordSealedKey.deriveArgon2idKey32FromPasswordBytes
    crates.argon2 password salt.val params).mapError .password
  (deriveKeysetFromLatestFirstKeys crates.kdf [key] localEnvVaultKeysetPurpose).mapError .envelope

def unlockVaultKeyset (vault : VaultFile) (password : Bytes) : Except Error Keyset := do
  let keyset ← deriveVaultKeyset crates vault password
  let encrypted ← decodeEncrypted crates vault.passwordCheck
  match decryptBytesWithAssociatedData crates.kdf crates.xchacha crates.aesGcmSiv keyset encrypted
    (passwordCheckAssociatedData vault) with
  | .error _ => throw .passwordRejected
  | .ok decrypted =>
      if decrypted ≠ passwordCheckPlaintext then throw .passwordRejected
      return keyset

/-- What a new vault draws. -/
structure VaultDraws where
  vaultId : Except CryptoError (FixedBytes vaultIdRandomBytes)
  salt : Except CryptoError (FixedBytes PasswordSealedKey.passwordKdfSaltSize)
  passwordCheck : FillRandom CryptoError

def StoredPasswordKdf.new (params : PasswordKdfParams)
    (salt : Except CryptoError (FixedBytes PasswordSealedKey.passwordKdfSaltSize)) :
    Except Error StoredPasswordKdf := do
  rejectPasswordKdfParamsAboveLocalBounds params
  let salt ← salt.mapError .envelope
  return ⟨kdfAlgorithmArgon2id, argon2Version0x13, params.memoryCostKib,
    params.iterations, params.parallelism, toBase64Url crates.texts salt.val⟩

def VaultFile.new (password : Bytes) (params : PasswordKdfParams)
    (now : Except Error UInt64) (draws : VaultDraws) :
    Except Error VaultFile := do
  let now ← now
  let vaultId ← draws.vaultId.mapError .envelope
  let storedKdf ← StoredPasswordKdf.new crates params draws.salt
  let vault : VaultFile := ⟨vaultVersion, toBase64Url crates.texts vaultId.val, now, now,
    storedKdf, [], .new⟩
  let keyset ← deriveVaultKeyset crates vault password
  let encrypted ← (encryptBytesWithAssociatedData crates.kdf crates.xchacha crates.aesGcmSiv keyset
    passwordCheckPlaintext (passwordCheckAssociatedData vault) draws.passwordCheck).mapError .envelope
  return { vault with passwordCheck := toBase64Url crates.texts encrypted }

/-- The clock is read twice. -/
def VaultFile.setEncryptedValue (vault : VaultFile)
    (keyset : Keyset) (name : EnvVarName) (value : Bytes)
    (now later : Except Error UInt64) (fillRandom : FillRandom CryptoError) :
    Except Error VaultFile := do
  let now ← now
  let entry : EncryptedEnvEntry := ⟨encryptedEntryVersion, now, []⟩
  let encrypted ← (encryptBytesWithAssociatedData crates.kdf crates.xchacha crates.aesGcmSiv keyset
    value (entryAssociatedData vault name entry) fillRandom).mapError .envelope
  let later ← later
  return { vault with
    encryptedEnv := vault.encryptedEnv.insert name.text
      { entry with ciphertext := toBase64Url crates.texts encrypted }
    updatedAtUnixSeconds := later }

def VaultFile.decryptValue (vault : VaultFile) (keyset : Keyset) (name : EnvVarName) :
    Except Error Bytes := do
  match vault.encryptedEnv.get name.text with
  | none => throw .missingProfileValues
  | some entry =>
      let encrypted ← decodeEncrypted crates entry.ciphertext
      (decryptBytesWithAssociatedData crates.kdf crates.xchacha crates.aesGcmSiv keyset encrypted
        (entryAssociatedData vault name entry)).mapError .envelope

def removeVaultEntriesNotRequiredByProfiles (vault : VaultFile)
    (requiredVaultValueNames : List EnvVarName)
    (now : Except Error UInt64) : Except Error VaultFile := do
  let retained := vault.encryptedEnv.retain fun name =>
    (requiredVaultValueNames.map (·.text)).contains name
  if retained.len ≠ vault.encryptedEnv.len then
    let now ← now
    return { vault with encryptedEnv := retained, updatedAtUnixSeconds := now }
  return { vault with encryptedEnv := retained }

end Values

end Paranoid.VaultModel
