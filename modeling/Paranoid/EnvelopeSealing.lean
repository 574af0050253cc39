import Paranoid.EnvelopeRotation

namespace Paranoid.EnvelopeSealing

open ByteCodecs CryptoPrimitives EnvelopeModel EnvelopeRotation Postgres

variable {kdf : Kdf} {xchacha : XChaCha20Poly1305} {aesGcmSiv : Aes256GcmSiv} {keyset : Keyset}
  {plaintext context envelope : Bytes} {fillRandom : FillRandom CryptoError}

/-- What went into an envelope. -/
structure Layers (kdf : Kdf) (xchacha : XChaCha20Poly1305)
    (aesGcmSiv : Aes256GcmSiv) (key : ParanoidKey)
    (plaintext context envelope : Bytes) where
  random : Bytes
  fields : HeaderFields
  innerCiphertext : Bytes
  ciphertext : Bytes
  padded : paddedPayloadLenForPlaintextLen plaintext.length = .ok random.length
  bounded : context.length ≤ maxAssociatedDataSize
  inner : xchacha.encrypt (kdf (innerKeyInput key fields.hkdfSalt))
    fields.xchachaNonce (buildHeader fields ++ context)
    (paddedPayload plaintext random) = some innerCiphertext
  outer : aesGcmSiv.encrypt (kdf (outerKeyInput key fields.blake3Salt)) fields.aesGcmSivNonce
    (buildHeader fields ++ context) innerCiphertext = some ciphertext
  split : envelope = buildHeader fields ++ ciphertext

theorem layers_of_encrypt {key : ParanoidKey} (hkey : keyset.latestKey = some key)
    (h : encryptBytesWithAssociatedData kdf xchacha aesGcmSiv
      keyset plaintext context fillRandom = .ok envelope) :
    Nonempty (Layers kdf xchacha aesGcmSiv key plaintext context envelope) := by
  rw [encryptBytesWithAssociatedData, hkey] at h
  dsimp only at h
  obtain ⟨n, hpadded, h⟩ := bind_eq_ok.1 h
  obtain ⟨⟨random, fields⟩, -, h⟩ := bind_eq_ok.1 h
  obtain ⟨layers, hlayers, h⟩ := bind_eq_ok.1 h
  obtain ⟨hcontext, rfl⟩ := buildLayerAssociatedData_eq_ok.1 hlayers
  obtain ⟨innerCiphertext, hinner, h⟩ := bind_eq_ok.1 h
  obtain ⟨ciphertext, houter, h⟩ := bind_eq_ok.1 h
  refine ⟨⟨random.val, fields, innerCiphertext, ciphertext,
    ?_, hcontext, ?_, ?_, (Except.ok.inj h).symm⟩⟩
  · rw [random.property, hpadded]
  · exact encrypt_eq_ok.1 hinner
  · exact encrypt_eq_ok.1 houter

variable (hxchacha : xchacha.Correct) (haesGcmSiv : aesGcmSiv.Correct)

include hxchacha haesGcmSiv

theorem Layers.length {key : ParanoidKey}
    (s : Layers kdf xchacha aesGcmSiv key plaintext context envelope) :
    s.ciphertext.length = s.random.length + cascadeTagOverhead := by
  obtain ⟨-, hroom, -⟩ := paddedPayloadLen_spec s.padded
  rw [haesGcmSiv.length s.outer, hxchacha.length s.inner,
    length_paddedPayload hroom, cascadeTagOverhead, Nat.add_assoc]

theorem Layers.total {key : ParanoidKey}
    (s : Layers kdf xchacha aesGcmSiv key plaintext context envelope) :
    envelope.length = headerSize + (s.random.length + cascadeTagOverhead) := by
  refine (congrArg List.length s.split).trans ?_
  rw [List.length_append, length_buildHeader, s.length hxchacha haesGcmSiv]

/-- An envelope is accepted as one. -/
theorem Layers.parse {key : ParanoidKey}
    (s : Layers kdf xchacha aesGcmSiv key plaintext context envelope) :
    validateEnvelopeSize envelope = .ok () ∧
      ParsedEnvelope.parse envelope = .ok ⟨buildHeader s.fields, s.fields, s.ciphertext⟩ := by
  obtain ⟨-, -, hvalid⟩ := paddedPayloadLen_spec s.padded
  have hlength := s.length hxchacha haesGcmSiv
  refine ⟨?_, (congrArg ParsedEnvelope.parse s.split).trans (parse_sealed hlength hvalid)⟩
  obtain ⟨hmin, hmax⟩ := isValidPaddedPayloadLen_bounds hvalid
  have htotal := s.total hxchacha haesGcmSiv
  have hsize : ¬ maxEnvelopeSize < envelope.length := by
    rw [htotal, maxEnvelopeSize]
    omega
  have hpos : 0 < minPaddedPayloadSize := by decide
  rw [validateEnvelopeSize, if_neg (by omega), if_neg hsize]
  rfl

/-- The key that sealed an envelope opens it. -/
theorem Layers.decrypt {key : ParanoidKey}
    (s : Layers kdf xchacha aesGcmSiv key plaintext context envelope) :
    decryptParsedWithKey kdf xchacha aesGcmSiv ⟨buildHeader s.fields, s.fields, s.ciphertext⟩
      (buildHeader s.fields ++ context) key = .ok plaintext := by
  dsimp only [decryptParsedWithKey]
  rw [decrypt_eq_ok.2 (haesGcmSiv.decrypts s.outer), ok_bind,
    decrypt_eq_ok.2 (hxchacha.decrypts s.inner), ok_bind]
  exact plaintextFromPaddedPayload_padded s.padded

omit hxchacha haesGcmSiv in
theorem latestKey_of_encrypt
    (h : encryptBytesWithAssociatedData kdf xchacha aesGcmSiv
      keyset plaintext context fillRandom = .ok envelope) :
    ∃ key, keyset.latestKey = some key := by
  cases hkey : keyset.latestKey with
  | none =>
      rw [encryptBytesWithAssociatedData, hkey] at h
      cases h
  | some key => exact ⟨key, rfl⟩

/-- What a keyset seals is accepted as an envelope, within the limit. -/
theorem parse_encrypt
    (h : encryptBytesWithAssociatedData kdf xchacha aesGcmSiv
      keyset plaintext context fillRandom = .ok envelope) :
    envelope.length ≤ maxEnvelopeSize ∧ validateEnvelopeSize envelope = .ok () ∧
      ∃ parsed, ParsedEnvelope.parse envelope = .ok parsed := by
  obtain ⟨key, hkey⟩ := latestKey_of_encrypt h
  obtain ⟨s⟩ := layers_of_encrypt hkey h
  obtain ⟨hsize, hparse⟩ := s.parse hxchacha haesGcmSiv
  refine ⟨?_, hsize, _, hparse⟩
  obtain ⟨-, -, hvalid⟩ := paddedPayloadLen_spec s.padded
  have hmax := (isValidPaddedPayloadLen_bounds hvalid).2
  rw [s.total hxchacha haesGcmSiv, maxEnvelopeSize]
  omega

/-- A keyset opens what it sealed, at the first key that it tries. -/
theorem decrypt_encrypt
    (h : encryptBytesWithAssociatedData kdf xchacha aesGcmSiv
      keyset plaintext context fillRandom = .ok envelope) :
    decryptBytesWithAssociatedData kdf xchacha aesGcmSiv keyset envelope context = .ok plaintext := by
  obtain ⟨key, hkey⟩ := latestKey_of_encrypt h
  obtain ⟨s⟩ := layers_of_encrypt hkey h
  obtain ⟨hsize, hparse⟩ := s.parse hxchacha haesGcmSiv
  obtain ⟨keys, hkeys⟩ := List.head?_eq_some_iff.1 hkey
  have hlayers : buildLayerAssociatedData (buildHeader s.fields) context =
    .ok (buildHeader s.fields ++ context) :=
    buildLayerAssociatedData_eq_ok.2 ⟨s.bounded, rfl⟩
  rw [decryptBytesWithAssociatedData, hsize, ok_bind, hparse, ok_bind]
  dsimp only
  rw [hlayers, ok_bind, hkeys, List.findSome?_cons, toOption_eq_some.2 (s.decrypt hxchacha haesGcmSiv)]
  rfl

end Paranoid.EnvelopeSealing
