import Mathlib.Data.List.Dedup
import Mathlib.Data.List.Nodup
import Paranoid.KeysetDerivation

namespace Paranoid.EnvelopeRotation

open ByteCodecs CryptoPrimitives EnvelopeModel KeysetDerivation Postgres

section Payloads

theorem isPowerOfTwo_two_pow (k : Nat) : isPowerOfTwo (2 ^ k) = true := by
  simp [isPowerOfTwo, Nat.log2_two_pow]

/-- A plaintext within the limit has a padded length that is accepted, with room for the
plaintext and its length. -/
theorem paddedPayloadLen_spec {plaintextLen len : Nat}
    (h : paddedPayloadLenForPlaintextLen plaintextLen = .ok len) :
    plaintextLen ≤ maxPlaintextSize ∧ trueLengthSize + plaintextLen ≤ len ∧
      isValidPaddedPayloadLen len = true := by
  unfold paddedPayloadLenForPlaintextLen at h
  split at h
  · cases h
  · rename_i hlen
    cases h
    rw [Nat.not_lt] at hlen
    refine ⟨hlen, (Nat.le_pow_clog (by decide) _).trans (le_max_left _ _), ?_⟩
    have hclog : Nat.clog 2 (trueLengthSize + plaintextLen) ≤ 21 := by
      rw [Nat.clog_le_iff_le_pow (by decide)]
      have hsize : trueLengthSize + maxPlaintextSize ≤ 2 ^ 21 := by decide
      omega
    have hmax : max (nextPowerOfTwo (trueLengthSize + plaintextLen)) minPaddedPayloadSize =
        2 ^ max (Nat.clog 2 (trueLengthSize + plaintextLen)) 8 := by
      rcases le_total (Nat.clog 2 (trueLengthSize + plaintextLen)) 8 with hle | hle
      · rw [max_eq_right hle]
        exact max_eq_right (Nat.pow_le_pow_right Nat.two_pos hle)
      · rw [max_eq_left hle]
        exact max_eq_left (Nat.pow_le_pow_right Nat.two_pos hle)
    have hlower : 2 ^ 8 ≤ 2 ^ max (Nat.clog 2 (trueLengthSize + plaintextLen)) 8 :=
      Nat.pow_le_pow_right (by decide) (le_max_right _ _)
    have hupper : 2 ^ max (Nat.clog 2 (trueLengthSize + plaintextLen)) 8 ≤ 2 ^ 21 :=
      Nat.pow_le_pow_right (by decide) (max_le hclog (by decide))
    rw [hmax]
    simp only [isValidPaddedPayloadLen, isPowerOfTwo_two_pow,
      Bool.and_true, Bool.and_eq_true, decide_eq_true_eq]
    exact ⟨hlower, hupper⟩

variable {plaintext random : Bytes}

theorem length_paddedPayload (h : trueLengthSize + plaintext.length ≤ random.length) :
    (paddedPayload plaintext random).length = random.length := by
  simp only [paddedPayload, List.length_append, length_leBytes, List.length_drop]
  omega

/-- The padding comes off again. -/
theorem plaintextFromPaddedPayload_padded
    (h : paddedPayloadLenForPlaintextLen plaintext.length = .ok random.length) :
    plaintextFromPaddedPayload (paddedPayload plaintext random) = .ok plaintext := by
  obtain ⟨hplaintext, hroom, hvalid⟩ := paddedPayloadLen_spec h
  have hlength := length_paddedPayload hroom
  have htrueLength : ofLeBytes (slice (paddedPayload plaintext random) 0 trueLengthSize) =
    plaintext.length := by
    have hslice : slice (paddedPayload plaintext random) 0 trueLengthSize =
      leBytes trueLengthSize plaintext.length := by
      rw [slice, paddedPayload, List.drop_zero, Nat.sub_zero, List.take_left' (length_leBytes _ _)]
    rw [hslice, ofLeBytes_leBytes]
    exact hplaintext.trans_lt (by decide)
  have hbody : slice (paddedPayload plaintext random) trueLengthSize
    (trueLengthSize + plaintext.length) = plaintext :=
    slice_append_left (length_leBytes _ _) rfl
  simp [plaintextFromPaddedPayload, hlength, hvalid, htrueLength, hbody, h, Nat.not_lt.2 hplaintext]

end Payloads

section Headers

variable {envelope header ciphertext : Bytes} {fields others : HeaderFields} {parsed : ParsedEnvelope}

/-- The header between its fixed bytes. -/
def fieldBytes (fields : HeaderFields) : Bytes :=
  fields.hkdfSalt.val ++
    (fields.blake3Salt.val ++ (fields.xchachaNonce.val ++ fields.aesGcmSivNonce.val))

@[simp] theorem length_fieldBytes (fields : HeaderFields) :
    (fieldBytes fields).length =
      saltSize + (saltSize + (xchacha20Poly1305NonceSize + aes256GcmSivNonceSize)) := by
  simp [fieldBytes, fields.hkdfSalt.property, fields.blake3Salt.property, fields.xchachaNonce.property,
    fields.aesGcmSivNonce.property]

theorem buildHeader_eq (fields : HeaderFields) :
    buildHeader fields = magic ++ (version :: suiteParanoidV1 :: fieldBytes fields) := rfl

@[simp] theorem length_buildHeader (fields : HeaderFields) :
    (buildHeader fields).length = headerSize := by
  simp only [buildHeader_eq, List.length_append, List.length_cons,
    length_fieldBytes, headerSize, aesGcmSivNonceOffset,
    xchachaNonceOffset, blake3SaltOffset, hkdfSaltOffset]
  omega

theorem parseHeaderFields_buildHeader (fields : HeaderFields) (rest : Bytes) :
    parseHeaderFields (buildHeader fields ++ rest) = some fields := by
  have hhkdfSalt : slice (buildHeader fields ++ rest) hkdfSaltOffset blake3SaltOffset =
    fields.hkdfSalt.val := by
    refine slice_eq_of_split (magic ++ [version, suiteParanoidV1])
      (fields.blake3Salt.val ++ (fields.xchachaNonce.val ++ (fields.aesGcmSivNonce.val ++ rest)))
        ?_ rfl ?_
    · simp [buildHeader]
    · rw [fields.hkdfSalt.property, blake3SaltOffset]
  have hblake3Salt : slice (buildHeader fields ++ rest) blake3SaltOffset xchachaNonceOffset =
    fields.blake3Salt.val := by
    refine slice_eq_of_split (magic ++ version :: suiteParanoidV1 :: fields.hkdfSalt.val)
      (fields.xchachaNonce.val ++ (fields.aesGcmSivNonce.val ++ rest)) ?_ ?_ ?_
    · simp [buildHeader]
    · simp [fields.hkdfSalt.property, saltSize, blake3SaltOffset, hkdfSaltOffset, magic]
    · rw [fields.blake3Salt.property, xchachaNonceOffset]
  have hxchachaNonce :
      slice (buildHeader fields ++ rest) xchachaNonceOffset aesGcmSivNonceOffset =
        fields.xchachaNonce.val := by
    refine slice_eq_of_split
      (magic ++ version :: suiteParanoidV1 :: (fields.hkdfSalt.val ++ fields.blake3Salt.val))
      (fields.aesGcmSivNonce.val ++ rest) ?_ ?_ ?_
    · simp [buildHeader]
    · simp [fields.hkdfSalt.property, fields.blake3Salt.property,
        saltSize, xchachaNonceOffset, blake3SaltOffset,
        hkdfSaltOffset, magic]
    · rw [fields.xchachaNonce.property, aesGcmSivNonceOffset]
  have haesGcmSivNonce :
      slice (buildHeader fields ++ rest) aesGcmSivNonceOffset headerSize =
        fields.aesGcmSivNonce.val := by
    refine slice_eq_of_split (magic ++ version :: suiteParanoidV1 ::
      (fields.hkdfSalt.val ++ (fields.blake3Salt.val ++ fields.xchachaNonce.val))) rest ?_ ?_ ?_
    · simp [buildHeader]
    · simp [fields.hkdfSalt.property, fields.blake3Salt.property,
        fields.xchachaNonce.property, saltSize,
        xchacha20Poly1305NonceSize, aesGcmSivNonceOffset,
          xchachaNonceOffset, blake3SaltOffset, hkdfSaltOffset, magic]
    · rw [fields.aesGcmSivNonce.property, headerSize]
  simp [parseHeaderFields, hhkdfSalt, hblake3Salt, hxchachaNonce, haesGcmSivNonce]

theorem buildHeader_inj (h : buildHeader fields = buildHeader others) : fields = others := by
  have hparse := parseHeaderFields_buildHeader fields []
  rw [h, parseHeaderFields_buildHeader] at hparse
  exact (Option.some.inj hparse).symm

theorem isValidPaddedPayloadLen_bounds {n : Nat} (h : isValidPaddedPayloadLen n = true) :
    minPaddedPayloadSize ≤ n ∧ n ≤ maxPaddedPayloadSize := by
  simp only [isValidPaddedPayloadLen, Bool.and_eq_true, decide_eq_true_eq] at h
  exact h.1

/-- An envelope with a valid header and length is parsed into its parts. -/
theorem parse_sealed {n : Nat} (hlength : ciphertext.length = n + cascadeTagOverhead)
    (hvalid : isValidPaddedPayloadLen n = true) :
    ParsedEnvelope.parse (buildHeader fields ++ ciphertext) =
      .ok ⟨buildHeader fields, fields, ciphertext⟩ := by
  have hmin := (isValidPaddedPayloadLen_bounds hvalid).1
  have htotal : (buildHeader fields ++ ciphertext).length = headerSize + (n + cascadeTagOverhead) := by
    rw [List.length_append, length_buildHeader, hlength]
  have hshort : ¬ (buildHeader fields ++ ciphertext).length < minEnvelopeSize := by
    rw [htotal, minEnvelopeSize]
    omega
  have hciphertext : (buildHeader fields ++ ciphertext).length - headerSize =
    n + cascadeTagOverhead := by
    rw [htotal, Nat.add_sub_cancel_left]
  have hmagic : slice (buildHeader fields ++ ciphertext) 0 magic.length = magic := rfl
  have hversion : (buildHeader fields ++ ciphertext).getD magic.length 0 = version := rfl
  have hsuite : (buildHeader fields ++ ciphertext).getD (magic.length + 1) 0 = suiteParanoidV1 := rfl
  have hheader : slice (buildHeader fields ++ ciphertext) 0 headerSize = buildHeader fields :=
    slice_eq_of_split [] ciphertext rfl rfl (by rw [length_buildHeader, Nat.zero_add])
  have hrest : (buildHeader fields ++ ciphertext).drop headerSize = ciphertext :=
    List.drop_left' (length_buildHeader fields)
  unfold ParsedEnvelope.parse
  rw [if_neg hshort, hmagic,
    if_neg (by simp), hversion, if_neg (by simp), hsuite, if_neg (by simp), hciphertext,
    if_neg (by omega), Nat.add_sub_cancel, hvalid, if_neg (by simp), parseHeaderFields_buildHeader, hheader, hrest]
  rfl

theorem parseHeaderFields_eq_some (h : parseHeaderFields envelope = some fields) :
    slice envelope hkdfSaltOffset headerSize = fieldBytes fields := by
  simp only [parseHeaderFields, Option.bind_eq_bind, Option.bind_eq_some_iff, fromBytes_eq_some] at h
  obtain ⟨hkdfSalt, hhkdfSalt, blake3Salt, hblake3Salt, xchachaNonce,
    hxchachaNonce, aesGcmSivNonce, haesGcmSivNonce, hfields⟩ := h
  cases hfields
  simp only [fieldBytes, hhkdfSalt, hblake3Salt, hxchachaNonce, haesGcmSivNonce]
  rw [slice_append_slice (by decide) (by decide), slice_append_slice (by decide) (by decide),
    slice_append_slice (by decide) (by decide)]

/-- Nothing of an envelope is outside of its header and its ciphertext, and the header
says nothing but its fields. -/
theorem parse_eq_ok (h : ParsedEnvelope.parse envelope = .ok parsed) :
    parsed.header = buildHeader parsed.fields ∧ envelope = parsed.header ++ parsed.ciphertext := by
  unfold ParsedEnvelope.parse at h
  by_cases hshort : envelope.length < minEnvelopeSize
  · rw [if_pos hshort] at h
    cases h
  by_cases hmagic : slice envelope 0 magic.length = magic
  swap
  · rw [if_neg hshort, if_pos hmagic] at h
    cases h
  by_cases hversion : envelope.getD magic.length 0 = version
  swap
  · rw [if_neg hshort, if_neg (not_not.2 hmagic), if_pos hversion] at h
    cases h
  by_cases hsuite : envelope.getD (magic.length + 1) 0 = suiteParanoidV1
  swap
  · rw [if_neg hshort, if_neg (not_not.2 hmagic), if_neg (not_not.2 hversion), if_pos hsuite] at h
    cases h
  rw [if_neg hshort, if_neg (not_not.2 hmagic),
    if_neg (not_not.2 hversion), if_neg (not_not.2 hsuite)] at h
  by_cases hciphertext : envelope.length - headerSize < minPaddedPayloadSize + cascadeTagOverhead
  · rw [if_pos hciphertext] at h
    cases h
  by_cases hvalid : (!isValidPaddedPayloadLen
    (envelope.length - headerSize - cascadeTagOverhead)) = true
  · rw [if_neg hciphertext, if_pos hvalid] at h
    cases h
  rw [if_neg hciphertext, if_neg hvalid] at h
  cases hfields : parseHeaderFields envelope with
  | none =>
      rw [hfields] at h
      cases h
  | some fields =>
      rw [hfields] at h
      cases h
      have hlength : magic.length + 2 ≤ envelope.length := by
        have hmin : magic.length + 2 ≤ minEnvelopeSize := by decide
        omega
      have hfixed : slice envelope 0 hkdfSaltOffset = magic ++ [version, suiteParanoidV1] := by
        have hfour : slice envelope 0 (magic.length + 1) = magic ++ [version] := by
          rw [← slice_append_slice (Nat.zero_le magic.length) (Nat.le_succ _),
            hmagic, slice_one (by omega), hversion]
        rw [hkdfSaltOffset, ← slice_append_slice (Nat.zero_le (magic.length + 1)) (Nat.le_succ _),
          hfour,
          slice_one (by omega), hsuite, List.append_assoc]
        rfl
      refine ⟨?_, (slice_zero_append_drop _ _).symm⟩
      have hheader : slice envelope 0 hkdfSaltOffset ++ slice envelope hkdfSaltOffset headerSize =
        slice envelope 0 headerSize :=
        slice_append_slice (Nat.zero_le _) (by decide)
      rw [hfixed, parseHeaderFields_eq_some hfields] at hheader
      rw [← hheader, buildHeader_eq]
      simp

end Headers

section Layers

variable {n : Nat} {aead : Aead n} {key : Key32}
  {nonce : FixedBytes n} {associatedData plaintext ciphertext : Bytes}

theorem encrypt_eq_ok : encrypt aead key nonce associatedData plaintext = .ok ciphertext ↔
    aead.ciphertext ⟨key, nonce, associatedData, plaintext⟩ = some ciphertext := by
  unfold encrypt Aead.ciphertext
  cases aead.encrypt key nonce associatedData plaintext <;> simp

theorem decrypt_eq_ok : decrypt aead key nonce associatedData ciphertext = .ok plaintext ↔
    aead.decrypt key nonce associatedData ciphertext = some plaintext := by
  unfold decrypt
  cases aead.decrypt key nonce associatedData ciphertext <;> simp

theorem toOption_eq_some {ε α : Type} {x : Except ε α} {a : α} : x.toOption = some a ↔ x = .ok a := by
  cases x <;> simp [Except.toOption]

theorem buildLayerAssociatedData_eq_ok {header layers : Bytes} :
    buildLayerAssociatedData header associatedData = .ok layers ↔
      associatedData.length ≤ maxAssociatedDataSize ∧ layers = header ++ associatedData := by
  unfold buildLayerAssociatedData
  split
  · simp_all
  · simp_all [eq_comm]

end Layers

/-- A call that sealed a plaintext, with what it drew and returned. -/
structure Sealing (kdf : Kdf) (xchacha : XChaCha20Poly1305) (aesGcmSiv : Aes256GcmSiv) where
  encryptingKey : Key32
  retiredKeys : List Key32
  path : PurposePath
  keyset : Keyset
  plaintext : Bytes
  context : Bytes
  fillRandom : FillRandom CryptoError
  paddedPayloadLen : Nat
  random : FixedBytes paddedPayloadLen
  fields : HeaderFields
  envelope : Bytes
  derived : path.keyset kdf (encryptingKey :: retiredKeys) = .ok keyset
  padded : paddedPayloadLenForPlaintextLen plaintext.length = .ok paddedPayloadLen
  drawn : drawRandom paddedPayloadLen fillRandom = .ok (random, fields)
  sealed : encryptBytesWithAssociatedData kdf xchacha aesGcmSiv
    keyset plaintext context fillRandom = .ok envelope

section Sealings

variable {kdf : Kdf} {xchacha : XChaCha20Poly1305} {aesGcmSiv : Aes256GcmSiv}

namespace Sealing

variable (s : Sealing kdf xchacha aesGcmSiv)

def key : ParanoidKey := s.path.workingKey kdf s.encryptingKey

def innerQuery : Query xchacha20Poly1305NonceSize where
  key := kdf (innerKeyInput s.key s.fields.hkdfSalt)
  nonce := s.fields.xchachaNonce
  associatedData := buildHeader s.fields ++ s.context
  plaintext := paddedPayload s.plaintext s.random.val

def outerQuery (innerCiphertext : Bytes) : Query aes256GcmSivNonceSize where
  key := kdf (outerKeyInput s.key s.fields.blake3Salt)
  nonce := s.fields.aesGcmSivNonce
  associatedData := buildHeader s.fields ++ s.context
  plaintext := innerCiphertext

/-- What one key's layers are derived from in this envelope. -/
def layerInputs (key : ParanoidKey) : List KdfInput :=
  [innerKeyInput key s.fields.hkdfSalt, outerKeyInput key s.fields.blake3Salt]

end Sealing

/-- What was encrypted inside, by the calls of the history. -/
def InnerMade (made : List (Sealing kdf xchacha aesGcmSiv))
    (query : Query xchacha20Poly1305NonceSize) : Prop :=
  ∃ s ∈ made, query = s.innerQuery

def OuterMade (made : List (Sealing kdf xchacha aesGcmSiv))
    (query : Query aes256GcmSivNonceSize) : Prop :=
  ∃ s ∈ made, ∃ innerCiphertext, xchacha.ciphertext s.innerQuery = some innerCiphertext ∧
    query = s.outerQuery innerCiphertext

/-- What keys are derived from, in the history and when a keyset is tried on its envelopes. -/
def inputsInPlay (made : List (Sealing kdf xchacha aesGcmSiv))
    (latestFirstKeys : List Key32) (path : PurposePath) :
    List KdfInput :=
  made.flatMap (fun s => s.path.inputs kdf s.encryptingKey ++ s.layerInputs s.key) ++
    latestFirstKeys.flatMap fun key =>
      path.inputs kdf key ++ made.flatMap fun s => s.layerInputs (path.workingKey kdf key)

variable {made : List (Sealing kdf xchacha aesGcmSiv)} {s t : Sealing kdf xchacha aesGcmSiv}

theorem Sealing.latestKey_keyset (s : Sealing kdf xchacha aesGcmSiv) :
    s.keyset.latestKey = some s.key := by
  rw [(keyset_eq_ok s.derived).2]
  rfl

theorem Sealing.layers (s : Sealing kdf xchacha aesGcmSiv) : s.context.length ≤ maxAssociatedDataSize ∧
    ∃ innerCiphertext ciphertext, xchacha.ciphertext s.innerQuery = some innerCiphertext ∧
      aesGcmSiv.ciphertext (s.outerQuery innerCiphertext) = some ciphertext ∧
        s.envelope = buildHeader s.fields ++ ciphertext := by
  have hsealed := s.sealed
  rw [encryptBytesWithAssociatedData, s.latestKey_keyset] at hsealed
  dsimp only at hsealed
  rw [encryptWithKeyAssociatedDataAndFill, s.padded, ok_bind, s.drawn, ok_bind] at hsealed
  obtain ⟨layers, hlayers, hsealed⟩ := bind_eq_ok.1 hsealed
  obtain ⟨hcontext, rfl⟩ := buildLayerAssociatedData_eq_ok.1 hlayers
  obtain ⟨innerCiphertext, hinner, hsealed⟩ := bind_eq_ok.1 hsealed
  obtain ⟨ciphertext, houter, hsealed⟩ := bind_eq_ok.1 hsealed
  exact ⟨hcontext, innerCiphertext, ciphertext, encrypt_eq_ok.1 hinner,
    encrypt_eq_ok.1 houter, (Except.ok.inj hsealed).symm⟩

section Opening

variable (hinner : xchacha.Ideal (InnerMade made)) (houter : aesGcmSiv.Ideal (OuterMade made))

include hinner houter

/-- The parts of an envelope that was made, as its parser gives them. -/
theorem Sealing.parse_envelope (s : Sealing kdf xchacha aesGcmSiv) :
    validateEnvelopeSize s.envelope = .ok () ∧
    ∃ ciphertext, s.envelope = buildHeader s.fields ++ ciphertext ∧
      ParsedEnvelope.parse s.envelope = .ok ⟨buildHeader s.fields, s.fields, ciphertext⟩ := by
  obtain ⟨-, innerCiphertext, ciphertext, hinnerCiphertext, hciphertext, henvelope⟩ := s.layers
  obtain ⟨-, hroom, hvalid⟩ := paddedPayloadLen_spec s.padded
  have hlength : ciphertext.length = s.paddedPayloadLen + cascadeTagOverhead := by
    have hpayload : (paddedPayload s.plaintext s.random.val).length = s.paddedPayloadLen := by
      rw [length_paddedPayload (by rwa [s.random.property]), s.random.property]
    rw [houter.length hciphertext, Sealing.outerQuery,
      hinner.length hinnerCiphertext, Sealing.innerQuery, hpayload,
      cascadeTagOverhead, Nat.add_assoc]
  refine ⟨?_, ciphertext, henvelope, henvelope ▸ parse_sealed hlength hvalid⟩
  obtain ⟨hmin, hmax⟩ := isValidPaddedPayloadLen_bounds hvalid
  have htotal : s.envelope.length = headerSize + (s.paddedPayloadLen + cascadeTagOverhead) := by
    rw [henvelope, List.length_append, length_buildHeader, hlength]
  have hsize : ¬ maxEnvelopeSize < s.envelope.length := by
    rw [htotal, maxEnvelopeSize]
    omega
  have hpos : 0 < minPaddedPayloadSize := by decide
  rw [validateEnvelopeSize, if_neg (by omega), if_neg hsize]
  rfl

/-- The key that sealed an envelope opens it. -/
theorem Sealing.decryptParsedWithKey_self (hs : s ∈ made) {ciphertext : Bytes}
    (henvelope : s.envelope = buildHeader s.fields ++ ciphertext) :
    decryptParsedWithKey kdf xchacha aesGcmSiv ⟨buildHeader s.fields, s.fields, ciphertext⟩
      (buildHeader s.fields ++ s.context) s.key = .ok s.plaintext := by
  obtain ⟨-, innerCiphertext, other, hinnerCiphertext, hciphertext, hother⟩ := s.layers
  obtain rfl : other = ciphertext := List.append_cancel_left (hother.symm.trans henvelope)
  have hinnerDecrypt := hinner.decrypts.2 ⟨⟨s, hs, rfl⟩, hinnerCiphertext⟩
  have houterDecrypt := houter.decrypts.2 ⟨⟨s, hs, innerCiphertext, hinnerCiphertext, rfl⟩, hciphertext⟩
  have hpadded : paddedPayloadLenForPlaintextLen s.plaintext.length = .ok s.random.val.length := by
    rw [s.random.property, s.padded]
  dsimp only [decryptParsedWithKey]
  rw [decrypt_eq_ok.2 houterDecrypt, ok_bind, decrypt_eq_ok.2 hinnerDecrypt, ok_bind]
  exact plaintextFromPaddedPayload_padded hpadded

end Opening

/-- What a key decrypts was made by a call of the history, with this header and context,
and with a key that the outer layer's key is derived from as well. -/
theorem decryptParsedWithKey_made (houter : aesGcmSiv.Ideal (OuterMade made))
    {parsed : ParsedEnvelope} {key : ParanoidKey}
    {context plaintext : Bytes} (hheader : parsed.header = buildHeader parsed.fields)
    (h : decryptParsedWithKey kdf xchacha aesGcmSiv parsed (parsed.header ++ context) key =
      .ok plaintext) :
    ∃ s ∈ made, s.fields = parsed.fields ∧ s.context = context ∧
      s.envelope = parsed.header ++ parsed.ciphertext ∧
      kdf (outerKeyInput key s.fields.blake3Salt) = kdf (outerKeyInput s.key s.fields.blake3Salt) := by
  obtain ⟨innerCiphertext, houterDecrypt, -⟩ := bind_eq_ok.1 h
  obtain ⟨⟨s, hs, madeInner, hmade, hquery⟩, hciphertext⟩ :=
    houter.decrypts.1 (decrypt_eq_ok.1 houterDecrypt)
  rw [hquery] at hciphertext
  simp only [Sealing.outerQuery, Query.mk.injEq] at hquery
  obtain ⟨hkey, -, hassociated, -⟩ := hquery
  rw [hheader] at hassociated
  obtain ⟨hheaders, hcontext⟩ :=
    List.append_inj hassociated (by rw [length_buildHeader, length_buildHeader])
  have hfields := buildHeader_inj hheaders
  rw [hfields] at hkey
  obtain ⟨-, sealedInner, ciphertext, hsealedInner, hsealed, henvelope⟩ := s.layers
  obtain rfl : madeInner = sealedInner := Option.some.inj (hmade.symm.trans hsealedInner)
  obtain rfl : parsed.ciphertext = ciphertext := Option.some.inj (hciphertext.symm.trans hsealed)
  refine ⟨s, hs, hfields.symm, hcontext.symm, ?_, hkey⟩
  rw [henvelope, hheader, hfields]

theorem blake3_eq_of_outerKeyInput_eq {key other : ParanoidKey} {salt otherSalt : FixedBytes saltSize}
    (h : outerKeyInput key salt = outerKeyInput other otherSalt) : key.blake3 = other.blake3 := by
  simp only [outerKeyInput, KdfInput.blake3.injEq, true_and] at h
  exact Subtype.ext (List.append_inj h (by rw [key.blake3.property, other.blake3.property])).1

/-- Within the limits, a keyset seals when the random source and the ciphers do not fail. -/
theorem encryptBytes_ok {keyset : Keyset} {key : ParanoidKey}
    {plaintext context : Bytes} {fillRandom : FillRandom CryptoError}
    (hkey : keyset.latestKey = some key) (hplaintext : plaintext.length ≤ maxPlaintextSize)
    (hcontext : context.length ≤ maxAssociatedDataSize)
    (hrandom : ∀ call n, ∃ bytes, fillRandom call n = .ok bytes)
    (hxchacha : ∀ query, ∃ ciphertext, xchacha.ciphertext query = some ciphertext)
    (haesGcmSiv : ∀ query, ∃ ciphertext, aesGcmSiv.ciphertext query = some ciphertext) :
    ∃ envelope, encryptBytesWithAssociatedData kdf xchacha aesGcmSiv
      keyset plaintext context fillRandom = .ok envelope := by
  choose bytes hbytes using hrandom
  choose inner hinner using hxchacha
  choose outer houter using haesGcmSiv
  simp only [encryptBytesWithAssociatedData, hkey,
    encryptWithKeyAssociatedDataAndFill, paddedPayloadLenForPlaintextLen,
    if_neg (Nat.not_lt.2 hplaintext), ok_bind, drawRandom, hbytes, pure_eq_ok, sealPayload,
    buildLayerAssociatedData_eq_ok.2 ⟨hcontext, rfl⟩,
      encrypt_eq_ok.2 (hinner _), encrypt_eq_ok.2 (houter _)]
  exact ⟨_, rfl⟩

/-- What a keyset seals, by what each of the steps gives. -/
theorem encryptBytes_eq_ok {keyset : Keyset} {key : ParanoidKey} {plaintext context inner ciphertext : Bytes}
    {fillRandom : FillRandom CryptoError} {paddedPayloadLen : Nat}
    {random : FixedBytes paddedPayloadLen} {fields : HeaderFields}
    (hkey : keyset.latestKey = some key)
    (hpadded : paddedPayloadLenForPlaintextLen plaintext.length = .ok paddedPayloadLen)
    (hdrawn : drawRandom paddedPayloadLen fillRandom = .ok (random, fields))
    (hcontext : context.length ≤ maxAssociatedDataSize)
    (hinner : xchacha.ciphertext ⟨kdf (innerKeyInput key fields.hkdfSalt), fields.xchachaNonce,
      buildHeader fields ++ context, paddedPayload plaintext random.val⟩ = some inner)
    (houter : aesGcmSiv.ciphertext ⟨kdf (outerKeyInput key fields.blake3Salt), fields.aesGcmSivNonce,
      buildHeader fields ++ context, inner⟩ = some ciphertext) :
    encryptBytesWithAssociatedData kdf xchacha aesGcmSiv keyset plaintext context fillRandom =
      .ok (buildHeader fields ++ ciphertext) := by
  rw [encryptBytesWithAssociatedData, hkey]
  dsimp only
  rw [encryptWithKeyAssociatedDataAndFill, hpadded, ok_bind, hdrawn, ok_bind]
  simp only [sealPayload, buildLayerAssociatedData_eq_ok.2 ⟨hcontext, rfl⟩, ok_bind,
    encrypt_eq_ok.2 hinner, encrypt_eq_ok.2 houter]
  rfl

theorem keyset_of_isOk {path : PurposePath} {latestFirstKeys : List Key32}
    (h : (path.keyset kdf latestFirstKeys).isOk = true) :
    path.keyset kdf latestFirstKeys =
      .ok ⟨path.text, latestFirstKeys.map fun key => path.workingKey kdf key⟩ := by
  cases hkeyset : path.keyset kdf latestFirstKeys with
  | error error =>
      rw [hkeyset] at h
      cases h
  | ok keyset => rw [(keyset_eq_ok hkeyset).2]

section Keysets

variable {latestFirstKeys : List Key32} {path : PurposePath}
  {keyset : Keyset} {key : Key32} {plaintext envelope context : Bytes}

theorem mem_inputsInPlay_made (hs : s ∈ made) {input : KdfInput}
    (h : input ∈ s.path.inputs kdf s.encryptingKey ∨ input ∈ s.layerInputs s.key) :
    input ∈ inputsInPlay made latestFirstKeys path :=
  List.mem_append_left _ (List.mem_flatMap.2 ⟨s, hs, List.mem_append.2 h⟩)

theorem mem_inputsInPlay_keyset (hkey : key ∈ latestFirstKeys) {input : KdfInput}
    (h : input ∈ path.inputs kdf key ∨ ∃ s ∈ made, input ∈ s.layerInputs (path.workingKey kdf key)) :
    input ∈ inputsInPlay made latestFirstKeys path :=
  List.mem_append_right
    _ (List.mem_flatMap.2 ⟨key, hkey, List.mem_append.2 (h.imp_right List.mem_flatMap.2)⟩)

variable (hkdf : NoCollision kdf (inputsInPlay made latestFirstKeys path)) (hpath : path.Valid)

include hkdf

/-- A key of the keyset that the outer layer's key of an envelope is derived from is the
key that sealed it. -/
theorem key_eq_of_outer_key_eq (hpath : path.Valid) (hs : s ∈ made) (hkey : key ∈ latestFirstKeys)
    (h : kdf (outerKeyInput (path.workingKey kdf key) s.fields.blake3Salt) =
      kdf (outerKeyInput s.key s.fields.blake3Salt)) :
    path = s.path ∧ key = s.encryptingKey := by
  have hinput := hkdf _ (mem_inputsInPlay_keyset hkey (.inr ⟨s, hs, by simp [Sealing.layerInputs]⟩))
    _ (mem_inputsInPlay_made hs (.inr (by simp [Sealing.layerInputs]))) h
  refine workingKey_inj (hkdf.mono ?_) hpath (keyset_eq_ok s.derived).1
    (.inr (blake3_eq_of_outerKeyInput_eq hinput))
  refine List.append_subset.2 ⟨fun input h => ?_, fun input h => ?_⟩
  · exact mem_inputsInPlay_keyset hkey (.inl h)
  · exact mem_inputsInPlay_made hs (.inl h)

/-- One envelope was sealed with one key, for one context. -/
theorem sealing_unique (houter : aesGcmSiv.Ideal (OuterMade made)) (hs : s ∈ made) (ht : t ∈ made)
    (h : s.envelope = t.envelope) :
    s.context = t.context ∧ s.path = t.path ∧ s.encryptingKey = t.encryptingKey := by
  obtain ⟨-, sInner, sCiphertext, hsInner, hsCiphertext, hsEnvelope⟩ := s.layers
  obtain ⟨-, tInner, tCiphertext, htInner, htCiphertext, htEnvelope⟩ := t.layers
  obtain ⟨hheaders, hciphertexts⟩ := List.append_inj (hsEnvelope.symm.trans (h.trans htEnvelope))
    (by rw [length_buildHeader, length_buildHeader])
  have hfields := buildHeader_inj hheaders
  rw [hciphertexts] at hsCiphertext
  obtain ⟨hkeys, hassociated⟩ :=
    houter.binds ⟨s, hs, sInner, hsInner, rfl⟩ ⟨t, ht, tInner, htInner, rfl⟩ hsCiphertext htCiphertext
  have hcontext : s.context = t.context := by
    simp only [Sealing.outerQuery, hfields] at hassociated
    exact List.append_cancel_left hassociated
  have hinput := hkdf _ (mem_inputsInPlay_made hs (.inr (by simp [Sealing.layerInputs])))
    _ (mem_inputsInPlay_made ht (.inr (by simp [Sealing.layerInputs]))) hkeys
  have hblake3 := blake3_eq_of_outerKeyInput_eq hinput
  refine ⟨hcontext, workingKey_inj (hkdf.mono ?_)
    (keyset_eq_ok s.derived).1 (keyset_eq_ok t.derived).1 (.inr hblake3)⟩
  refine List.append_subset.2 ⟨fun input h => ?_, fun input h => ?_⟩
  · exact mem_inputsInPlay_made hs (.inl h)
  · exact mem_inputsInPlay_made ht (.inl h)

variable (hinner : xchacha.Ideal (InnerMade made)) (houter : aesGcmSiv.Ideal (OuterMade made))

include hinner houter

/-- What one key of the keyset opens. -/
theorem decryptParsedWithKey_eq_ok (hpath : path.Valid)
    (hkey : key ∈ latestFirstKeys) {parsed : ParsedEnvelope}
    (hheader : parsed.header = buildHeader parsed.fields)
    (h : decryptParsedWithKey kdf xchacha aesGcmSiv parsed
      (parsed.header ++ context) (path.workingKey kdf key) =
      .ok plaintext) :
    ∃ s ∈ made, s.envelope = parsed.header ++ parsed.ciphertext ∧
      s.context = context ∧ s.plaintext = plaintext ∧
      s.path = path ∧ s.encryptingKey = key := by
  obtain ⟨s, hs, hfields, rfl, henvelope, houterKey⟩ := decryptParsedWithKey_made houter hheader h
  obtain ⟨rfl, rfl⟩ := key_eq_of_outer_key_eq hkdf hpath hs hkey houterKey
  obtain ⟨header, fields, ciphertext⟩ := parsed
  dsimp only at hheader hfields
  subst hheader hfields
  have hself := s.decryptParsedWithKey_self hinner houter hs henvelope
  exact ⟨s, hs, henvelope, rfl, Except.ok.inj (hself.symm.trans h), rfl, rfl⟩

/-- A keyset opens what was sealed for its purpose with one of its keys, for the context
that it was sealed for, and opens nothing else. -/
theorem decryptBytes_eq_ok_iff (hkeyset : path.keyset kdf latestFirstKeys = .ok keyset) :
    decryptBytesWithAssociatedData kdf xchacha aesGcmSiv keyset envelope context = .ok plaintext ↔
      ∃ s ∈ made, s.envelope = envelope ∧ s.context = context ∧
        s.plaintext = plaintext ∧ s.path = path ∧
        s.encryptingKey ∈ latestFirstKeys := by
  obtain ⟨hpath, rfl⟩ := keyset_eq_ok hkeyset
  constructor
  · intro h
    obtain ⟨_, -, h⟩ := bind_eq_ok.1 h
    obtain ⟨parsed, hparsed, h⟩ := bind_eq_ok.1 h
    obtain ⟨layers, hlayers, hopened⟩ := bind_eq_ok.1 h
    obtain ⟨-, rfl⟩ := buildLayerAssociatedData_eq_ok.1 hlayers
    obtain ⟨hheader, hparts⟩ := parse_eq_ok hparsed
    split at hopened
    · rename_i opened hfound
      cases hopened
      obtain ⟨_, hworking, hdecrypt⟩ := List.exists_of_findSome?_eq_some hfound
      obtain ⟨key, hkey, rfl⟩ := List.mem_map.1 hworking
      obtain ⟨s, hs, henvelope, hcontext, hplaintext, hspath, rfl⟩ :=
        decryptParsedWithKey_eq_ok hkdf hinner houter hpath hkey
        hheader (toOption_eq_some.1 hdecrypt)
      exact ⟨s, hs, henvelope.trans hparts.symm, hcontext, hplaintext, hspath, hkey⟩
    · cases hopened
  · rintro ⟨s, hs, rfl, rfl, rfl, rfl, hkey⟩
    obtain ⟨hsize, ciphertext, henvelope, hparsed⟩ := s.parse_envelope hinner houter
    have hself := s.decryptParsedWithKey_self hinner houter hs henvelope
    have hlayers : buildLayerAssociatedData (buildHeader s.fields) s.context =
      .ok (buildHeader s.fields ++ s.context) :=
      buildLayerAssociatedData_eq_ok.2 ⟨s.layers.1, rfl⟩
    rw [decryptBytesWithAssociatedData, hsize, ok_bind, hparsed, ok_bind, hlayers, ok_bind]
    split
    · rename_i opened hopened
      -- another key of the keyset may come first, but it opens what this key opens
      obtain ⟨_, hworking, hdecrypt⟩ := List.exists_of_findSome?_eq_some hopened
      obtain ⟨key, hfirst, rfl⟩ := List.mem_map.1 hworking
      obtain ⟨t, ht, htEnvelope, -, htPlaintext, htPath, htKey⟩ :=
        decryptParsedWithKey_eq_ok hkdf hinner houter hpath hfirst
        rfl (toOption_eq_some.1 hdecrypt)
      obtain ⟨-, -, hsame⟩ := sealing_unique hkdf houter ht hs (htEnvelope.trans henvelope.symm)
      rw [← htKey, hsame] at hdecrypt
      have hopens := toOption_eq_some.1 hdecrypt
      exact hopens.symm.trans hself
    · rename_i hnone
      have hnot := List.findSome?_eq_none_iff.1 hnone _ (List.mem_map_of_mem hkey)
      have hopens := toOption_eq_some.2 hself
      simp only [Sealing.key] at hopens
      rw [hopens] at hnot
      cases hnot

end Keysets

/-- Whatever was sealed with it, a key that is still in a keyset opens, wherever it stands
there; without the key, for another purpose, with another context, or when the envelope is
not one that was sealed, the keyset opens nothing. -/
theorem opens_exactly_what_was_sealed {latestFirstKeys : List Key32}
    {path : PurposePath} {keyset : Keyset}
    (hkdf : NoCollision kdf (inputsInPlay made latestFirstKeys path))
    (hinner : xchacha.Ideal (InnerMade made))
    (houter : aesGcmSiv.Ideal (OuterMade made))
    (hkeyset : path.keyset kdf latestFirstKeys = .ok keyset) :
    (∀ s ∈ made, s.encryptingKey ∈ latestFirstKeys → keyset.purpose = s.keyset.purpose →
      decryptBytesWithAssociatedData kdf xchacha aesGcmSiv keyset s.envelope s.context =
        .ok s.plaintext) ∧
    (∀ s ∈ made, ∀ context,
      s.encryptingKey ∉ latestFirstKeys ∨ keyset.purpose ≠ s.keyset.purpose ∨ context ≠ s.context →
        ∃ error, decryptBytesWithAssociatedData kdf xchacha aesGcmSiv keyset s.envelope context =
          .error error) ∧
    (∀ envelope, (∀ s ∈ made, envelope ≠ s.envelope) → ∀ context,
      ∃ error, decryptBytesWithAssociatedData kdf xchacha aesGcmSiv keyset envelope context =
        .error error) := by
  obtain ⟨hpath, hkeysetEq⟩ := keyset_eq_ok hkeyset
  have hpurpose (s : Sealing kdf xchacha aesGcmSiv) : keyset.purpose = s.keyset.purpose ↔
    s.path = path := by
    obtain ⟨hspath, hskeyset⟩ := keyset_eq_ok s.derived
    rw [hkeysetEq, hskeyset]
    exact ⟨fun h => (text_inj hpath hspath h).symm, fun h => h ▸ rfl⟩
  refine ⟨?_, ?_, ?_⟩
  · intro s hs hkey hsame
    exact (decryptBytes_eq_ok_iff hkdf hinner houter hkeyset).2
      ⟨s, hs, rfl, rfl, rfl, (hpurpose s).1 hsame, hkey⟩
  · intro s hs context hother
    cases hdecrypt : decryptBytesWithAssociatedData kdf xchacha aesGcmSiv keyset s.envelope context with
    | error error => exact ⟨error, rfl⟩
    | ok plaintext =>
        obtain ⟨t, ht, henvelope, hcontext, -, htpath, hkey⟩ :=
          (decryptBytes_eq_ok_iff hkdf hinner houter hkeyset).1 hdecrypt
        obtain ⟨hcontexts, hpaths, hkeys⟩ := sealing_unique hkdf houter ht hs henvelope
        rcases hother with hother | hother | hother
        · exact absurd (hkeys ▸ hkey) hother
        · exact absurd ((hpurpose s).2 (hpaths.symm.trans htpath)) hother
        · exact absurd (hcontext.symm.trans hcontexts) hother
  · intro envelope hnew context
    cases hdecrypt : decryptBytesWithAssociatedData kdf xchacha aesGcmSiv keyset envelope context with
    | error error => exact ⟨error, rfl⟩
    | ok plaintext =>
        obtain ⟨t, ht, henvelope, -⟩ := (decryptBytes_eq_ok_iff hkdf hinner houter hkeyset).1 hdecrypt
        exact absurd henvelope.symm (hnew t ht)

end Sealings

section Rotated

/-- A ciphertext with an empty tag is that of a call. -/
def isCiphertextOf {n : Nat} (key : Key32) (nonce : FixedBytes n) (associatedData ciphertext : Bytes)
    (record : Query n) : Bool :=
  key = record.key ∧ nonce = record.nonce ∧ associatedData = record.associatedData ∧
    ciphertext = record.plaintext ++ List.replicate tagSize 0

/-- A cipher that adds an empty tag, and decrypts only what these calls encrypted. -/
def recordedCiphers {n : Nat} (records : List (Query n)) : Aead n where
  encrypt _ _ _ plaintext := some (plaintext ++ List.replicate tagSize 0)
  decrypt key nonce associatedData ciphertext :=
    (records.find? (isCiphertextOf key nonce associatedData ciphertext)).map Query.plaintext

theorem recordedCiphers_ideal {n : Nat} {records : List (Query n)} {made : Query n → Prop}
    (hnodup : (records.map Query.plaintext).Nodup) (h : ∀ query, made query ↔ query ∈ records) :
    (recordedCiphers records).Ideal made where
  decrypts := by
    intro key nonce associatedData ciphertext plaintext
    rw [h]
    simp only [recordedCiphers, Aead.ciphertext, Option.some.injEq]
    constructor
    · intro hfound
      obtain ⟨record, hrecord, rfl⟩ := Option.map_eq_some_iff.1 hfound
      have hmem := List.mem_of_find?_eq_some hrecord
      have hsame : isCiphertextOf key nonce associatedData ciphertext record = true :=
        List.find?_some hrecord
      obtain ⟨rfl, rfl, rfl, rfl⟩ := of_decide_eq_true hsame
      exact ⟨hmem, rfl⟩
    · rintro ⟨hmem, rfl⟩
      have hself : isCiphertextOf key nonce associatedData
          (plaintext ++ List.replicate tagSize 0) ⟨key, nonce, associatedData, plaintext⟩ = true :=
        decide_eq_true ⟨rfl, rfl, rfl, rfl⟩
      obtain ⟨record, hrecord⟩ := Option.isSome_iff_exists.1 (List.find?_isSome.2 ⟨_, hmem, hself⟩)
      have hsame : isCiphertextOf key nonce associatedData
          (plaintext ++ List.replicate tagSize 0) record = true := List.find?_some hrecord
      rw [hrecord, Option.map_some, ← List.append_cancel_right (of_decide_eq_true hsame).2.2.2]
  binds := by
    intro query other ciphertext hquery hother hciphertext hsame
    obtain rfl := Option.some.inj hciphertext
    have hplaintext := List.append_cancel_right (Option.some.inj hsame)
    rw [List.inj_on_of_nodup_map hnodup ((h query).1 hquery) ((h other).1 hother) hplaintext.symm]
    exact ⟨rfl, rfl⟩
  length := by
    intro query ciphertext hciphertext
    obtain rfl := Option.some.inj hciphertext
    rw [List.length_append, List.length_replicate]

def recordedCipher {n : Nat} (record : Query n) : Aead n := recordedCiphers [record]

theorem recordedCipher_ideal {n : Nat} {record : Query n}
    {made : Query n → Prop} (h : ∀ query, made query ↔ query = record) :
    (recordedCipher record).Ideal made :=
  recordedCiphers_ideal (List.nodup_singleton _) fun query => (h query).trans List.mem_singleton.symm

/-- A digest that is enough for a few inputs. -/
def digest (bytes : Bytes) : Key32 :=
  ⟨leBytes keySize (bytes.foldl
    (fun sum byte => (sum * 257 + byte.toNat + 1) % (2 ^ 255 - 19)) 0), length_leBytes _ _⟩

def digestKdf : Kdf
  | .hkdfSha256 key salt info => digest (0 :: (key.val ++ (salt ++ info)))
  | .blake3 context keyMaterial => digest (1 :: (utf8 context ++ keyMaterial))

def digested : KdfInput → Bytes
  | .hkdfSha256 key salt info => 0 :: (key.val ++ (salt ++ info))
  | .blake3 context keyMaterial => 1 :: (utf8 context ++ keyMaterial)

/-- The number that the digest of an input writes. -/
def sumOf (input : KdfInput) : Nat :=
  (digested input).foldl (fun sum byte => (sum * 257 + byte.toNat + 1) % (2 ^ 255 - 19)) 0

theorem digestKdf_eq (input : KdfInput) : (digestKdf input).val = leBytes keySize (sumOf input) := by
  cases input <;> rfl

theorem sumOf_lt (input : KdfInput) : sumOf input < 256 ^ keySize := by
  rw [sumOf]
  rcases List.eq_nil_or_concat (digested input) with hnil | ⟨front, last, hconcat⟩
  · rw [hnil]
    decide
  · rw [hconcat, List.concat_eq_append, List.foldl_append]
    exact (Nat.mod_lt _ (by decide)).trans (by decide)

theorem noCollision_of_nodup {inputs : List KdfInput} (h : (inputs.map sumOf).Nodup) :
    NoCollision digestKdf inputs := by
  intro i hi j hj hdigest
  refine List.inj_on_of_nodup_map h hi hj ?_
  have hbytes := congrArg Subtype.val hdigest
  rw [digestKdf_eq, digestKdf_eq] at hbytes
  rw [← ofLeBytes_leBytes (sumOf_lt i), hbytes, ofLeBytes_leBytes (sumOf_lt j)]

theorem noCollision_of_dedup {inputs : List KdfInput} (h : (inputs.dedup.map sumOf).Nodup) :
    NoCollision digestKdf inputs :=
  (noCollision_of_nodup h).mono (List.subset_dedup inputs)

def retiredKey : Key32 := ⟨List.replicate keySize 7, by decide⟩

def latestKey : Key32 := ⟨List.replicate keySize 9, by decide⟩

def tokensPath : PurposePath := .child (.root [0x61, 0x70, 0x70]) [0x6b, 0x65, 0x79]

def tokensKey : ParanoidKey := tokensPath.workingKey digestKdf retiredKey

def tokenFields : HeaderFields where
  hkdfSalt := ⟨List.replicate saltSize 1, by decide⟩
  blake3Salt := ⟨List.replicate saltSize 2, by decide⟩
  xchachaNonce := ⟨List.replicate xchacha20Poly1305NonceSize 3, by decide⟩
  aesGcmSivNonce := ⟨List.replicate aes256GcmSivNonceSize 4, by decide⟩

def tokenPadding : FixedBytes minPaddedPayloadSize :=
  ⟨List.replicate minPaddedPayloadSize 0, List.length_replicate⟩

def innerRecord : Query xchacha20Poly1305NonceSize where
  key := digestKdf (innerKeyInput tokensKey tokenFields.hkdfSalt)
  nonce := tokenFields.xchachaNonce
  associatedData := buildHeader tokenFields ++ [5]
  plaintext := paddedPayload [1, 2, 3] tokenPadding.val

def outerRecord : Query aes256GcmSivNonceSize where
  key := digestKdf (outerKeyInput tokensKey tokenFields.blake3Salt)
  nonce := tokenFields.aesGcmSivNonce
  associatedData := buildHeader tokenFields ++ [5]
  plaintext := innerRecord.plaintext ++ List.replicate tagSize 0

def tokenSealing : Sealing digestKdf (recordedCipher innerRecord) (recordedCipher outerRecord) where
  encryptingKey := retiredKey
  retiredKeys := []
  path := tokensPath
  keyset := ⟨tokensPath.text, [tokensPath.workingKey digestKdf retiredKey]⟩
  plaintext := [1, 2, 3]
  context := [5]
  fillRandom call n := .ok ⟨List.replicate n (UInt8.ofNat call), List.length_replicate⟩
  paddedPayloadLen := minPaddedPayloadSize
  random := tokenPadding
  fields := tokenFields
  envelope := buildHeader tokenFields ++ (outerRecord.plaintext ++ List.replicate tagSize 0)
  derived := keyset_of_isOk (by decide +kernel)
  padded := by decide +kernel
  drawn := rfl
  sealed := encryptBytes_eq_ok rfl (by decide +kernel) rfl (by decide +kernel) rfl rfl

theorem length_counted (call n : Nat) : (List.replicate n (UInt8.ofNat call)).length = n :=
  List.length_replicate

theorem tokens_padded :
    paddedPayloadLenForPlaintextLen ([1, 2, 3] : Bytes).length = .ok minPaddedPayloadSize := by
  decide +kernel

theorem tokens_drawn : drawRandom minPaddedPayloadSize
    (fun call n => .ok ⟨List.replicate n (UInt8.ofNat call), length_counted call n⟩) =
      .ok (tokenPadding, tokenFields) :=
  rfl

/-- A plaintext that the retired key seals for a context. -/
structure Sealed where
  path : PurposePath
  context : Bytes
  plaintext : Bytes
  derived : path.keyset digestKdf [retiredKey] =
    .ok ⟨path.text, [path.workingKey digestKdf retiredKey]⟩
  padded : paddedPayloadLenForPlaintextLen plaintext.length = .ok minPaddedPayloadSize
  bounded : context.length ≤ maxAssociatedDataSize

namespace Sealed

variable (s : Sealed)

def inner : Query xchacha20Poly1305NonceSize where
  key := digestKdf (innerKeyInput (s.path.workingKey digestKdf retiredKey) tokenFields.hkdfSalt)
  nonce := tokenFields.xchachaNonce
  associatedData := buildHeader tokenFields ++ s.context
  plaintext := paddedPayload s.plaintext tokenPadding.val

def outer : Query aes256GcmSivNonceSize where
  key := digestKdf (outerKeyInput (s.path.workingKey digestKdf retiredKey) tokenFields.blake3Salt)
  nonce := tokenFields.aesGcmSivNonce
  associatedData := buildHeader tokenFields ++ s.context
  plaintext := s.inner.plaintext ++ List.replicate tagSize 0

def envelope : Bytes := buildHeader tokenFields ++ (s.outer.plaintext ++ List.replicate tagSize 0)

def sealing (records : List Sealed) : Sealing digestKdf (recordedCiphers (records.map inner))
    (recordedCiphers (records.map outer)) where
  encryptingKey := retiredKey
  retiredKeys := []
  path := s.path
  keyset := ⟨s.path.text, [s.path.workingKey digestKdf retiredKey]⟩
  plaintext := s.plaintext
  context := s.context
  fillRandom call n := .ok ⟨List.replicate n (UInt8.ofNat call), length_counted call n⟩
  paddedPayloadLen := minPaddedPayloadSize
  random := tokenPadding
  fields := tokenFields
  envelope := s.envelope
  derived := s.derived
  padded := s.padded
  drawn := tokens_drawn
  sealed := encryptBytes_eq_ok rfl s.padded tokens_drawn s.bounded rfl rfl

variable {records : List Sealed}

theorem innerMade_sealing (query : Query xchacha20Poly1305NonceSize) :
    InnerMade (records.map fun s => s.sealing records) query ↔ query ∈ records.map inner := by
  constructor
  · rintro ⟨made, hmade, rfl⟩
    obtain ⟨s, hs, rfl⟩ := List.mem_map.1 hmade
    exact List.mem_map.2 ⟨s, hs, rfl⟩
  · intro hquery
    obtain ⟨s, hs, rfl⟩ := List.mem_map.1 hquery
    exact ⟨_, List.mem_map.2 ⟨s, hs, rfl⟩, rfl⟩

theorem outerMade_sealing (query : Query aes256GcmSivNonceSize) :
    OuterMade (records.map fun s => s.sealing records) query ↔ query ∈ records.map outer := by
  constructor
  · rintro ⟨made, hmade, ciphertext, hciphertext, rfl⟩
    obtain ⟨s, hs, rfl⟩ := List.mem_map.1 hmade
    obtain rfl := Option.some.inj hciphertext
    exact List.mem_map.2 ⟨s, hs, rfl⟩
  · intro hquery
    obtain ⟨s, hs, rfl⟩ := List.mem_map.1 hquery
    exact ⟨_, List.mem_map.2 ⟨s, hs, rfl⟩, _, rfl, rfl⟩

end Sealed

def rotatedKeyset : Keyset :=
  ⟨tokensPath.text, [tokensPath.workingKey digestKdf latestKey,
    tokensPath.workingKey digestKdf retiredKey]⟩

theorem innerMade_tokenSealing (query : Query xchacha20Poly1305NonceSize) :
    InnerMade [tokenSealing] query ↔ query = innerRecord := by
  simp only [InnerMade, List.mem_singleton, exists_eq_left]
  rfl

theorem outerMade_tokenSealing (query : Query aes256GcmSivNonceSize) :
    OuterMade [tokenSealing] query ↔ query = outerRecord := by
  constructor
  · rintro ⟨s, hs, innerCiphertext, hinner, rfl⟩
    obtain rfl := List.mem_singleton.1 hs
    obtain rfl := Option.some.inj hinner
    rfl
  · rintro rfl
    exact ⟨tokenSealing, List.mem_cons_self, _, rfl, rfl⟩

theorem token_sums_nodup :
    (([latestKey, retiredKey].flatMap fun key => tokensPath.inputs digestKdf key ++
      tokenSealing.layerInputs (tokensPath.workingKey digestKdf key)).map sumOf).Nodup := by
  decide +kernel

theorem tokens_noCollision :
    NoCollision digestKdf (inputsInPlay [tokenSealing] [latestKey, retiredKey] tokensPath) :=
  -- what the token was sealed with is derived again from the retired key
  NoCollision.mono (noCollision_of_nodup token_sums_nodup)
    (List.append_subset.2 ⟨List.subset_append_of_subset_right _ (List.subset_append_left _ _),
      List.Subset.refl _⟩)

theorem opens_exactly_what_was_sealed_rotated :
    decryptBytesWithAssociatedData digestKdf (recordedCipher innerRecord)
      (recordedCipher outerRecord) rotatedKeyset
      tokenSealing.envelope [5] = .ok [1, 2, 3] :=
  (opens_exactly_what_was_sealed tokens_noCollision
    (recordedCipher_ideal innerMade_tokenSealing) (recordedCipher_ideal outerMade_tokenSealing)
    (keyset_of_isOk (by decide +kernel) :
      tokensPath.keyset digestKdf [latestKey, retiredKey] = .ok rotatedKeyset)).1 tokenSealing
    List.mem_cons_self (by decide +kernel) rfl

end Rotated

end Paranoid.EnvelopeRotation
