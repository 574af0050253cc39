import Paranoid.CryptoPrimitives
import Paranoid.Postgres

namespace Paranoid.PasswordSealedKey

open ByteCodecs CryptoPrimitives Postgres

def passwordKdfSaltSize : Nat := 32

def passwordKdfMinMemoryCostKib : Nat := 19 * 1024

def passwordKdfMinIterations : Nat := 2

def passwordKdfMaxParallelism : Nat := 16

def passwordSealedKey32MaxMemoryCostKib : Nat := 4 * 1024 * 1024

def passwordSealedKey32MaxIterations : Nat := 65536

inductive CryptoError
  | passwordKdfMemoryCostTooSmall (actual min : Nat)
  | passwordKdfIterationsTooFew (actual min : Nat)
  | passwordKdfParallelismInvalid (actual min max : Nat)
  | invalidPasswordKdfParams
  | keyDerivationFailed
  | injectedRandomFillFailed
  | encryptionFailed
  | decryptionFailed
  | invalidKeyLength (actual : Nat)
  | invalidPasswordKdfSaltLength (actual : Nat)
  | invalidPasswordSealedKeyLength (actual want : Nat)
  | unsupportedPasswordSealedKeyVersion (version : UInt8)
  | passwordSealedKeyParamsOutOfRange
  deriving DecidableEq

structure PasswordKdfParams where
  memoryCostKib : UInt32
  iterations : UInt32
  parallelism : UInt32
  deriving DecidableEq

/-- The Argon2 crate: the parameters that it accepts, and the hash of a password, which it
may refuse as well. -/
structure Argon2 where
  accepts : PasswordKdfParams → Bool
  hash : (password salt : Bytes) → PasswordKdfParams → Option Key32

abbrev XChaCha20Poly1305 : Type := Aead xchacha20Poly1305NonceSize

section Parameters

variable (argon2 : Argon2)

def toArgon2Params (params : PasswordKdfParams) : Except CryptoError Unit :=
  if argon2.accepts params then .ok () else .error .invalidPasswordKdfParams

def PasswordKdfParams.new (memoryCostKib iterations parallelism : UInt32) :
    Except CryptoError PasswordKdfParams := do
  if memoryCostKib.toNat < passwordKdfMinMemoryCostKib then
    throw (.passwordKdfMemoryCostTooSmall memoryCostKib.toNat passwordKdfMinMemoryCostKib)
  if iterations.toNat < passwordKdfMinIterations then
    throw (.passwordKdfIterationsTooFew iterations.toNat passwordKdfMinIterations)
  if parallelism.toNat = 0 ∨ passwordKdfMaxParallelism < parallelism.toNat then
    throw (.passwordKdfParallelismInvalid parallelism.toNat 1 passwordKdfMaxParallelism)
  toArgon2Params argon2 ⟨memoryCostKib, iterations, parallelism⟩
  return ⟨memoryCostKib, iterations, parallelism⟩

def deriveArgon2idKey32FromPasswordBytes (password salt : Bytes) (params : PasswordKdfParams) :
    Except CryptoError Key32 := do
  toArgon2Params argon2 params
  match argon2.hash password salt params with
  | some key => return key
  | none => throw .keyDerivationFailed

def writeKdfParamBytes (params : PasswordKdfParams) : Bytes :=
  leBytes 4 params.memoryCostKib.toNat ++
    leBytes 4 params.iterations.toNat ++ leBytes 4 params.parallelism.toNat

def kdfParamBytesSize : Nat := 12

def readAndValidateKdfParamBytes (bytes : Bytes) : Except CryptoError PasswordKdfParams := do
  let memoryCostKib := UInt32.ofNat (ofLeBytes (slice bytes 0 4))
  let iterations := UInt32.ofNat (ofLeBytes (slice bytes 4 8))
  let parallelism := UInt32.ofNat (ofLeBytes (slice bytes 8 12))
  if passwordSealedKey32MaxMemoryCostKib < memoryCostKib.toNat ∨
      passwordSealedKey32MaxIterations < iterations.toNat ∨
        passwordKdfMaxParallelism < parallelism.toNat then
    throw .passwordSealedKeyParamsOutOfRange
  PasswordKdfParams.new argon2 memoryCostKib iterations parallelism

end Parameters

section Records

variable (argon2 : Argon2) (aead : XChaCha20Poly1305)

def passwordSealedKey32Version : UInt8 := 1

def passwordSealedKey32CallerSaltVersion : UInt8 := 2

def headerSize : Nat := 1 + passwordKdfSaltSize + kdfParamBytesSize

def callerSaltHeaderSize : Nat := 1 + kdfParamBytesSize

def recordSize (headerSize : Nat) : Nat := headerSize + xchacha20Poly1305NonceSize + keySize + tagSize

def passwordSealedKey32RecordSize : Nat := recordSize headerSize

def passwordSealedKey32CallerSaltRecordSize : Nat := recordSize callerSaltHeaderSize

def encryptXchacha20Poly1305 (key : Key32) (nonce : FixedBytes xchacha20Poly1305NonceSize)
    (associatedData plaintext : Bytes) : Except CryptoError Bytes :=
  match aead.encrypt key nonce associatedData plaintext with
  | some ciphertext => .ok ciphertext
  | none => .error .encryptionFailed

def decryptXchacha20Poly1305 (key : Key32) (nonce : FixedBytes xchacha20Poly1305NonceSize)
    (associatedData ciphertext : Bytes) : Except CryptoError Bytes :=
  match aead.decrypt key nonce associatedData ciphertext with
  | some plaintext => .ok plaintext
  | none => .error .decryptionFailed

def sealKey32WithPassword (key : Key32) (password : Bytes) (params : PasswordKdfParams)
    (fillRandom : FillRandom CryptoError) : Except CryptoError Bytes := do
  let salt ← fillRandom 0 passwordKdfSaltSize
  let header := passwordSealedKey32Version :: (salt.val ++ writeKdfParamBytes params)
  let nonce ← fillRandom 1 xchacha20Poly1305NonceSize
  let kek ← deriveArgon2idKey32FromPasswordBytes argon2 password salt.val params
  let ciphertext ← encryptXchacha20Poly1305 aead kek nonce header key.val
  return header ++ (nonce.val ++ ciphertext)

def sealKey32WithPasswordAndCallerSalt (key : Key32) (password : Bytes) (callerSalt : Key32)
    (params : PasswordKdfParams) (fillRandom : FillRandom CryptoError) : Except CryptoError Bytes := do
  let header := passwordSealedKey32CallerSaltVersion :: writeKdfParamBytes params
  let nonce ← fillRandom 0 xchacha20Poly1305NonceSize
  let kek ← deriveArgon2idKey32FromPasswordBytes argon2 password callerSalt.val params
  let ciphertext ← encryptXchacha20Poly1305 aead kek nonce header key.val
  return header ++ (nonce.val ++ ciphertext)

structure ParsedHeader where
  salt : FixedBytes passwordKdfSaltSize
  params : PasswordKdfParams

def checkRecord (record : Bytes) (size : Nat) (version : UInt8) : Except CryptoError Unit := do
  if record.length ≠ size then throw (.invalidPasswordSealedKeyLength record.length size)
  if record.headD 0 ≠ version then throw (.unsupportedPasswordSealedKeyVersion (record.headD 0))

def parseHeader (record : Bytes) : Except CryptoError ParsedHeader := do
  checkRecord record passwordSealedKey32RecordSize passwordSealedKey32Version
  match FixedBytes.fromBytes passwordKdfSaltSize (slice record 1 (1 + passwordKdfSaltSize)) with
  | none => throw (.invalidPasswordKdfSaltLength (slice record 1 (1 + passwordKdfSaltSize)).length)
  | some salt =>
      let params ← readAndValidateKdfParamBytes argon2
        (slice record (1 + passwordKdfSaltSize) headerSize)
      return ⟨salt, params⟩

def parseCallerSaltHeader (record : Bytes) : Except CryptoError PasswordKdfParams := do
  checkRecord record passwordSealedKey32CallerSaltRecordSize passwordSealedKey32CallerSaltVersion
  readAndValidateKdfParamBytes argon2 (slice record 1 callerSaltHeaderSize)

/-- What both shapes do behind their headers. -/
def openBehindHeader (record : Bytes) (size : Nat)
    (password salt : Bytes) (params : PasswordKdfParams) :
    Except CryptoError Key32 := do
  match FixedBytes.fromBytes xchacha20Poly1305NonceSize (slice record size (size + xchacha20Poly1305NonceSize)) with
  | none => throw .decryptionFailed
  | some nonce =>
      let kek ← deriveArgon2idKey32FromPasswordBytes argon2 password salt params
      let plaintext ← decryptXchacha20Poly1305 aead kek nonce (slice record 0 size)
        (record.drop (size + xchacha20Poly1305NonceSize))
      match FixedBytes.fromBytes keySize plaintext with
      | some key => return key
      | none => throw (.invalidKeyLength plaintext.length)

def openKey32WithPassword (record password : Bytes) : Except CryptoError Key32 := do
  let header ← parseHeader argon2 record
  openBehindHeader argon2 aead record headerSize password header.salt.val header.params

def openKey32WithPasswordAndCallerSalt (record password : Bytes) (callerSalt : Key32) :
    Except CryptoError Key32 := do
  let params ← parseCallerSaltHeader argon2 record
  openBehindHeader argon2 aead record callerSaltHeaderSize password callerSalt.val params

end Records

section Opening

variable {argon2 : Argon2} {aead : XChaCha20Poly1305}
  {params : PasswordKdfParams} {record header password salt : Bytes}
  {size : Nat} {key kek : Key32} {nonce : FixedBytes xchacha20Poly1305NonceSize} {ciphertext : Bytes}

/-- The bounds that only the readers check. -/
def WithinReadBounds (params : PasswordKdfParams) : Prop :=
  params.memoryCostKib.toNat ≤ passwordSealedKey32MaxMemoryCostKib ∧
    params.iterations.toNat ≤ passwordSealedKey32MaxIterations

instance (params : PasswordKdfParams) : Decidable (WithinReadBounds params) :=
  inferInstanceAs (Decidable (_ ∧ _))

@[simp] theorem length_writeKdfParamBytes (params : PasswordKdfParams) :
    (writeKdfParamBytes params).length = kdfParamBytesSize := by
  simp [writeKdfParamBytes, kdfParamBytesSize]

theorem ofLeBytes_uint32 (n : UInt32) : UInt32.ofNat (ofLeBytes (leBytes 4 n.toNat)) = n := by
  rw [ofLeBytes_leBytes n.toNat_lt]
  exact UInt32.ofNat_toNat

/-- What `PasswordKdfParams.new` has checked of the parallelism, the readers check again. -/
theorem new_eq_ok {memoryCostKib iterations parallelism : UInt32}
    (h : PasswordKdfParams.new argon2 memoryCostKib iterations parallelism = .ok params) :
    params = ⟨memoryCostKib, iterations, parallelism⟩ ∧
      parallelism.toNat ≤ passwordKdfMaxParallelism := by
  unfold PasswordKdfParams.new at h
  by_cases hmemory : memoryCostKib.toNat < passwordKdfMinMemoryCostKib
  · rw [if_pos hmemory] at h
    cases h
  · by_cases hiterations : iterations.toNat < passwordKdfMinIterations
    · rw [if_neg hmemory, if_pos hiterations] at h
      cases h
    · by_cases hparallelism : parallelism.toNat = 0 ∨ passwordKdfMaxParallelism < parallelism.toNat
      · rw [if_neg hmemory, if_neg hiterations, if_pos hparallelism] at h
        cases h
      · rw [if_neg hmemory, if_neg hiterations, if_neg hparallelism] at h
        obtain ⟨⟨⟩, -, hparams⟩ := bind_eq_ok.1 h
        cases hparams
        exact ⟨rfl, Nat.not_lt.1 fun hlt => hparallelism (.inr hlt)⟩

theorem slice_writeKdfParamBytes (params : PasswordKdfParams) :
    slice (writeKdfParamBytes params) 0 4 = leBytes 4 params.memoryCostKib.toNat ∧
      slice (writeKdfParamBytes params) 4 8 = leBytes 4 params.iterations.toNat ∧
      slice (writeKdfParamBytes params) 8 12 = leBytes 4 params.parallelism.toNat := by
  refine ⟨by simp [writeKdfParamBytes, slice], by simp [writeKdfParamBytes, slice], ?_⟩
  rw [writeKdfParamBytes, ← List.append_nil (leBytes 4 params.parallelism.toNat)]
  exact slice_append_left (by simp) (by simp)

/-- The readers get the parameters back, unless they are beyond their bounds. -/
theorem readAndValidate_write
    (hnew : PasswordKdfParams.new argon2 params.memoryCostKib
      params.iterations params.parallelism = .ok params) :
    readAndValidateKdfParamBytes argon2 (writeKdfParamBytes params) =
      if WithinReadBounds params then .ok params else .error .passwordSealedKeyParamsOutOfRange := by
  obtain ⟨hmemory, hiterations, hparallelism⟩ := slice_writeKdfParamBytes params
  unfold readAndValidateKdfParamBytes
  simp only [hmemory, hiterations, hparallelism, ofLeBytes_uint32]
  have hbound := (new_eq_ok hnew).2
  by_cases hreadable : WithinReadBounds params
  · rw [if_pos hreadable, if_neg, hnew]
    unfold WithinReadBounds at hreadable
    omega
  · rw [if_neg hreadable, if_pos]
    · rfl
    · unfold WithinReadBounds at hreadable
      omega

theorem checkRecord_eq_ok {version : UInt8}
    (hsize : record.length = size) (hversion : version = record.headD 0) :
    checkRecord record size version = .ok () := by
  unfold checkRecord
  rw [if_neg (not_not.2 hsize), if_neg (not_not.2 hversion.symm)]
  rfl

theorem encrypt_eq_ok {plaintext : Bytes}
    (h : encryptXchacha20Poly1305 aead kek nonce header plaintext = .ok ciphertext) :
    aead.encrypt kek nonce header plaintext = some ciphertext := by
  unfold encryptXchacha20Poly1305 at h
  split at h
  · rename_i heq
    cases h
    exact heq
  · cases h

/-- What is sealed behind a header opens again. -/
theorem openBehindHeader_sealed (haead : aead.Correct) (hheader : header.length = size)
    (hkek : deriveArgon2idKey32FromPasswordBytes argon2 password salt params = .ok kek)
    (hciphertext : encryptXchacha20Poly1305 aead kek nonce header key.val = .ok ciphertext) :
    openBehindHeader argon2 aead (header ++ (nonce.val ++ ciphertext)) size password salt params =
      .ok key := by
  have hnonce : slice (header ++ (nonce.val ++ ciphertext))
    size (size + xchacha20Poly1305NonceSize) = nonce.val :=
    slice_append_left hheader (by rw [nonce.property])
  have hstart : slice (header ++ (nonce.val ++ ciphertext)) 0 size = header := by
    subst hheader
    simp [slice]
  have hrest : (header ++ (nonce.val ++ ciphertext)).drop (size + xchacha20Poly1305NonceSize) =
    ciphertext := by
    rw [← List.append_assoc, List.drop_left']
    rw [List.length_append, hheader, nonce.property]
  unfold openBehindHeader
  rw [hnonce, hstart, hrest]
  simp only [fromBytes_val, hkek, ok_bind, decryptXchacha20Poly1305,
    haead.decrypts (encrypt_eq_ok hciphertext)]
  rfl

end Opening

section Records

variable {argon2 : Argon2} {aead : XChaCha20Poly1305}
  {params : PasswordKdfParams} {record password : Bytes}
  {key callerSalt : Key32} {fillRandom : FillRandom CryptoError}

theorem checkRecord_sealed (haead : aead.Correct) {version : UInt8}
    {fields ciphertext : Bytes} {size : Nat} {kek : Key32}
    {nonce : FixedBytes xchacha20Poly1305NonceSize} (hheader : (version :: fields).length = size)
    (hciphertext : encryptXchacha20Poly1305 aead kek nonce (version :: fields) key.val =
      .ok ciphertext) :
    checkRecord (version :: fields ++ (nonce.val ++ ciphertext)) (recordSize size) version =
      .ok () := by
  apply checkRecord_eq_ok
  · rw [List.length_append, List.length_append, hheader,
      nonce.property, haead.length (encrypt_eq_ok hciphertext),
      key.property, recordSize]
    omega
  · rfl

theorem open_sealed (haead : aead.Correct)
    (hnew : PasswordKdfParams.new argon2 params.memoryCostKib
      params.iterations params.parallelism = .ok params)
    (h : sealKey32WithPassword argon2 aead key password params fillRandom = .ok record) :
    openKey32WithPassword argon2 aead record password =
      if WithinReadBounds params then .ok key else .error .passwordSealedKeyParamsOutOfRange := by
  unfold sealKey32WithPassword at h
  obtain ⟨salt, -, h⟩ := bind_eq_ok.1 h
  obtain ⟨nonce, -, h⟩ := bind_eq_ok.1 h
  obtain ⟨kek, hkek, h⟩ := bind_eq_ok.1 h
  obtain ⟨ciphertext, hciphertext, h⟩ := bind_eq_ok.1 h
  cases h
  have hheader : (passwordSealedKey32Version :: (salt.val ++ writeKdfParamBytes params)).length =
    headerSize := by
    rw [List.length_cons, List.length_append, salt.property, length_writeKdfParamBytes, headerSize]
    omega
  have hsalt : slice (passwordSealedKey32Version ::
    (salt.val ++ writeKdfParamBytes params) ++ (nonce.val ++ ciphertext)) 1
      (1 + passwordKdfSaltSize) = salt.val := by
    rw [List.cons_append, List.append_assoc]
    exact slice_cons_append (by rw [salt.property])
  have hparams : slice (passwordSealedKey32Version ::
    (salt.val ++ writeKdfParamBytes params) ++ (nonce.val ++ ciphertext))
      (1 + passwordKdfSaltSize) headerSize = writeKdfParamBytes params := by
    rw [← List.cons_append, List.append_assoc]
    exact slice_append_left
      (by rw [List.length_cons, salt.property, Nat.add_comm]) (by simp [headerSize])
  have hparse : parseHeader argon2
    (passwordSealedKey32Version :: (salt.val ++ writeKdfParamBytes params) ++
      (nonce.val ++ ciphertext)) =
      if WithinReadBounds params then .ok ⟨salt, params⟩ else .error .passwordSealedKeyParamsOutOfRange :=
        by
    unfold parseHeader
    rw [passwordSealedKey32RecordSize, checkRecord_sealed haead hheader hciphertext, ok_bind, hsalt]
    simp only [fromBytes_val, hparams, readAndValidate_write hnew]
    split <;> rfl
  unfold openKey32WithPassword
  rw [hparse]
  split
  · exact openBehindHeader_sealed haead hheader hkek hciphertext
  · rfl

theorem open_caller_salt_sealed (haead : aead.Correct)
    (hnew : PasswordKdfParams.new argon2 params.memoryCostKib
      params.iterations params.parallelism = .ok params)
    (h : sealKey32WithPasswordAndCallerSalt argon2 aead key
      password callerSalt params fillRandom = .ok record) :
    openKey32WithPasswordAndCallerSalt argon2 aead record password callerSalt =
      if WithinReadBounds params then .ok key else .error .passwordSealedKeyParamsOutOfRange := by
  unfold sealKey32WithPasswordAndCallerSalt at h
  obtain ⟨nonce, -, h⟩ := bind_eq_ok.1 h
  obtain ⟨kek, hkek, h⟩ := bind_eq_ok.1 h
  obtain ⟨ciphertext, hciphertext, h⟩ := bind_eq_ok.1 h
  cases h
  have hheader : (passwordSealedKey32CallerSaltVersion :: writeKdfParamBytes params).length =
    callerSaltHeaderSize := by
    rw [List.length_cons, length_writeKdfParamBytes, callerSaltHeaderSize, Nat.add_comm]
  have hparams : slice (passwordSealedKey32CallerSaltVersion ::
    writeKdfParamBytes params ++ (nonce.val ++ ciphertext)) 1
      callerSaltHeaderSize = writeKdfParamBytes params :=
    slice_cons_append (by rw [length_writeKdfParamBytes, callerSaltHeaderSize])
  have hparse : parseCallerSaltHeader argon2
    (passwordSealedKey32CallerSaltVersion :: writeKdfParamBytes params ++
      (nonce.val ++ ciphertext)) =
      if WithinReadBounds params then .ok params else .error .passwordSealedKeyParamsOutOfRange := by
    unfold parseCallerSaltHeader
    rw [passwordSealedKey32CallerSaltRecordSize, checkRecord_sealed haead hheader hciphertext,
      ok_bind, hparams, readAndValidate_write hnew]
  unfold openKey32WithPasswordAndCallerSalt
  rw [hparse]
  split
  · exact openBehindHeader_sealed haead hheader hkek hciphertext
  · rfl

/-- A record of either shape opens exactly when its parameters are within the bounds of
the readers, which the sealers do not check. -/
theorem sealed_key_opens_iff (haead : aead.Correct) {memoryCostKib iterations parallelism : UInt32}
    (hnew : PasswordKdfParams.new argon2 memoryCostKib iterations parallelism = .ok params)
    (key callerSalt : Key32)
    (password : Bytes) (fillRandom : FillRandom CryptoError) :
    (∀ record, sealKey32WithPassword argon2 aead key password params fillRandom = .ok record →
      (openKey32WithPassword argon2 aead record password = .ok key ↔ WithinReadBounds params)) ∧
    ∀ record, sealKey32WithPasswordAndCallerSalt argon2 aead
      key password callerSalt params fillRandom = .ok record →
      (openKey32WithPasswordAndCallerSalt argon2 aead record password callerSalt = .ok key ↔
        WithinReadBounds params) := by
  obtain ⟨rfl, -⟩ := new_eq_ok hnew
  constructor
  · intro record hseal
    rw [open_sealed haead hnew hseal]
    split <;> simp_all
  · intro record hseal
    rw [open_caller_salt_sealed haead hnew hseal]
    split <;> simp_all

/-- The parameters that the Argon2 crate accepts, with one key for every password. -/
def oneKeyArgon2 : Argon2 where
  accepts params := 1 ≤ params.iterations.toNat ∧ 1 ≤ params.parallelism.toNat ∧
    params.parallelism.toNat < 2 ^ 24 ∧ 8 * params.parallelism.toNat ≤ params.memoryCostKib.toNat
  hash _ _ _ := some ⟨List.replicate keySize 7, rfl⟩

/-- A cipher that leaves the plaintext as it is. -/
def plainCipher : XChaCha20Poly1305 where
  encrypt _ _ _ plaintext := some (plaintext ++ List.replicate tagSize 0)
  decrypt _ _ _ ciphertext := some (ciphertext.take (ciphertext.length - tagSize))

theorem plainCipher_correct : plainCipher.Correct where
  decrypts h := by
    cases h
    simp [plainCipher, tagSize]
  length h := by
    cases h
    simp

def keyOf (b : UInt8) : Key32 := ⟨List.replicate keySize b, rfl⟩

def zeroFill : FillRandom CryptoError := fun _ n => .ok ⟨List.replicate n 0, List.length_replicate⟩

def interactiveDefault : PasswordKdfParams := ⟨64 * 1024, 3, 1⟩

def slowParams : PasswordKdfParams := ⟨19 * 1024, 65537, 1⟩

theorem sealed_key_opens_default :
    ∃ record, sealKey32WithPassword oneKeyArgon2 plainCipher
      (keyOf 1) [112] interactiveDefault zeroFill = .ok record ∧
      openKey32WithPassword oneKeyArgon2 plainCipher record [112] = .ok (keyOf 1) := by
  have hnew : PasswordKdfParams.new oneKeyArgon2 (64 * 1024) 3 1 = .ok interactiveDefault := by
    decide +kernel
  refine ⟨_, rfl, ?_⟩
  exact ((sealed_key_opens_iff plainCipher_correct hnew (keyOf 1) (keyOf 2) [112] zeroFill).1
    _ rfl).2 (by decide +kernel)

/-- One iteration more than the readers allow. -/
theorem sealed_key_never_opens :
    PasswordKdfParams.new oneKeyArgon2 (19 * 1024) 65537 1 = .ok slowParams ∧
      ∃ record, sealKey32WithPassword oneKeyArgon2 plainCipher
        (keyOf 1) [112] slowParams zeroFill = .ok record ∧
        openKey32WithPassword oneKeyArgon2 plainCipher record [112] =
          .error .passwordSealedKeyParamsOutOfRange := by
  refine ⟨by decide +kernel, _, rfl, ?_⟩
  decide +kernel

end Records

end Paranoid.PasswordSealedKey
