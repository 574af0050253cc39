import Mathlib.Order.Bounds.Basic
import Paranoid.EnvelopeRotation

namespace Paranoid.EnvelopeFormat

open ByteCodecs CryptoPrimitives EnvelopeModel EnvelopeRotation List Postgres

section Lengths

variable {n : Nat}

theorem isPowerOfTwo_iff : isPowerOfTwo n = true ↔ ∃ k, n = 2 ^ k := by
  constructor
  · intro h
    simp only [isPowerOfTwo, Bool.and_eq_true, decide_eq_true_eq] at h
    exact ⟨n.log2, h.2.symm⟩
  · rintro ⟨k, rfl⟩
    exact isPowerOfTwo_two_pow k

/-- The sizes of a padded payload. -/
def IsBucket (n : Nat) : Prop := ∃ k, 8 ≤ k ∧ k ≤ 21 ∧ n = 2 ^ k

theorem isValidPaddedPayloadLen_iff : isValidPaddedPayloadLen n = true ↔ IsBucket n := by
  have hmin : minPaddedPayloadSize = 2 ^ 8 := rfl
  have hmax : maxPaddedPayloadSize = 2 ^ 21 := rfl
  rw [isValidPaddedPayloadLen, Bool.and_eq_true, Bool.and_eq_true,
    decide_eq_true_iff, decide_eq_true_iff, isPowerOfTwo_iff, hmin, hmax]
  constructor
  · rintro ⟨⟨hlower, hupper⟩, k, rfl⟩
    exact ⟨k, (Nat.pow_le_pow_iff_right (by decide)).1 hlower,
      (Nat.pow_le_pow_iff_right (by decide)).1 hupper, rfl⟩
  · rintro ⟨k, hlower, hupper, rfl⟩
    exact ⟨⟨Nat.pow_le_pow_right (by decide) hlower, Nat.pow_le_pow_right (by decide) hupper⟩, k, rfl⟩

theorem nextPowerOfTwo_least (n : Nat) : IsLeast {p | n ≤ p ∧ ∃ k, p = 2 ^ k} (nextPowerOfTwo n) := by
  refine ⟨⟨Nat.le_pow_clog (by decide) n, _, rfl⟩, ?_⟩
  rintro p ⟨hle, k, rfl⟩
  exact Nat.pow_le_pow_right (by decide) ((Nat.clog_le_iff_le_pow (by decide)).2 hle)

/-- The padded length of a plaintext is no more than the largest bucket, and there is none of a plaintext that is too long. -/
theorem paddedPayloadLen_eq (plaintextLen : Nat) :
    (plaintextLen ≤ maxPlaintextSize → paddedPayloadLenForPlaintextLen plaintextLen =
      .ok (max (nextPowerOfTwo (trueLengthSize + plaintextLen)) minPaddedPayloadSize)) ∧
    (maxPlaintextSize < plaintextLen →
      paddedPayloadLenForPlaintextLen plaintextLen =
        .error (.plaintextTooLarge plaintextLen maxPlaintextSize)) :=
  ⟨fun h => if_neg (Nat.not_lt.2 h), fun h => if_pos h⟩

end Lengths

section Layout

variable {envelope payload plaintext : Bytes} {parsed : ParsedEnvelope}

/-- The layout of version 1: the fixed bytes, the random parts, and a ciphertext of a bucket and the tags. -/
structure IsEnvelope (envelope : Bytes) (parsed : ParsedEnvelope) : Prop where
  split : envelope = magic ++
    (version :: suiteParanoidV1 :: (parsed.fields.hkdfSalt.val ++ (parsed.fields.blake3Salt.val ++
    (parsed.fields.xchachaNonce.val ++ (parsed.fields.aesGcmSivNonce.val ++ parsed.ciphertext)))))
  header : parsed.header = buildHeader parsed.fields
  bucket : ∃ bucket, IsBucket bucket ∧ parsed.ciphertext.length = bucket + cascadeTagOverhead

theorem parse_length (h : ParsedEnvelope.parse envelope = .ok parsed) :
    minEnvelopeSize ≤ envelope.length ∧
      isValidPaddedPayloadLen (envelope.length - headerSize - cascadeTagOverhead) = true := by
  unfold ParsedEnvelope.parse at h
  simp only [guard_eq_ok, not_not, Bool.not_eq_true, Bool.not_eq_false'] at h
  obtain ⟨hshort, -, -, -, -, hvalid, -⟩ := h
  exact ⟨Nat.not_lt.1 hshort, hvalid⟩

theorem buildHeader_append (fields : HeaderFields) (ciphertext : Bytes) :
    buildHeader fields ++ ciphertext =
    magic ++ (version :: suiteParanoidV1 ::
      (fields.hkdfSalt.val ++ (fields.blake3Salt.val ++ (fields.xchachaNonce.val ++
      (fields.aesGcmSivNonce.val ++ ciphertext))))) := by
  simp only [buildHeader, append_assoc, cons_append]

theorem parse_iff : ParsedEnvelope.parse envelope = .ok parsed ↔ IsEnvelope envelope parsed := by
  constructor
  · intro h
    obtain ⟨hheader, hsplit⟩ := parse_eq_ok h
    obtain ⟨hmin, hvalid⟩ := parse_length h
    have hfields := length_buildHeader parsed.fields
    refine ⟨by rw [← buildHeader_append, ← hheader]; exact hsplit, hheader, _, isValidPaddedPayloadLen_iff.1 hvalid, ?_⟩
    rw [hsplit, hheader, length_append, hfields] at hmin ⊢
    rw [minEnvelopeSize] at hmin
    omega
  · intro h
    obtain ⟨bucket, hbucket, hlength⟩ := h.bucket
    have hparse : ParsedEnvelope.parse (buildHeader parsed.fields ++ parsed.ciphertext) = _ :=
      parse_sealed hlength (isValidPaddedPayloadLen_iff.2 hbucket)
    rw [h.split, ← buildHeader_append, hparse, ← h.header]

theorem leBytes_ofLeBytes (bytes : Bytes) : leBytes bytes.length (ofLeBytes bytes) = bytes := by
  induction bytes with
  | nil => rfl
  | cons b bytes ih =>
      have hlow : UInt8.ofNat (b.toNat + 256 * ofLeBytes bytes) = b := by
        rw [← UInt8.toNat_inj, UInt8.toNat_ofNat', Nat.add_mul_mod_self_left]
        exact Nat.mod_eq_of_lt b.toNat_lt
      have hhigh : (b.toNat + 256 * ofLeBytes bytes) / 256 = ofLeBytes bytes := by
        rw [Nat.add_mul_div_left _ _ (by decide), Nat.div_eq_of_lt b.toNat_lt, Nat.zero_add]
      rw [length_cons, ofLeBytes, leBytes, hlow, hhigh, ih]

/-- A plaintext behind its length and with filler behind it, in the least bucket that holds it. -/
structure IsPadded (payload plaintext filler : Bytes) : Prop where
  split : payload = leBytes trueLengthSize plaintext.length ++ (plaintext ++ filler)
  least : plaintext.length ≤ maxPlaintextSize ∧
    payload.length = max (nextPowerOfTwo (trueLengthSize + plaintext.length)) minPaddedPayloadSize

theorem paddedPayloadLen_eq_ok {plaintextLen len : Nat} :
    paddedPayloadLenForPlaintextLen plaintextLen = .ok len ↔
    plaintextLen ≤ maxPlaintextSize ∧
      len = max (nextPowerOfTwo (trueLengthSize + plaintextLen)) minPaddedPayloadSize := by
  rcases Nat.lt_or_ge maxPlaintextSize plaintextLen with hlong | hshort
  · rw [(paddedPayloadLen_eq plaintextLen).2 hlong]
    exact iff_of_false nofun fun h => Nat.not_lt.2 h.1 hlong
  · rw [(paddedPayloadLen_eq plaintextLen).1 hshort, Except.ok.injEq, eq_comm]
    exact (and_iff_right hshort).symm

theorem plaintextFromPaddedPayload_iff : plaintextFromPaddedPayload payload = .ok plaintext ↔
    ∃ filler, IsPadded payload plaintext filler := by
  constructor
  · intro h
    simp only [plaintextFromPaddedPayload, guard_eq_ok,
      not_not, Bool.not_eq_true, Bool.not_eq_false'] at h
    obtain ⟨hvalid, hlong, hpadded, hplaintext⟩ := h
    obtain rfl := Except.ok.inj hplaintext
    obtain ⟨-, hroom, -⟩ := paddedPayloadLen_spec hpadded
    have hfield : (slice payload 0 trueLengthSize).length = trueLengthSize :=
      length_slice ((Nat.le_add_right _ _).trans hroom)
    have hbody : (slice payload trueLengthSize
      (trueLengthSize + ofLeBytes (slice payload 0 trueLengthSize))).length =
        ofLeBytes (slice payload 0 trueLengthSize) := by
      rw [length_slice hroom, Nat.add_sub_cancel_left]
    have htrueLength := leBytes_ofLeBytes (slice payload 0 trueLengthSize)
    rw [hfield] at htrueLength
    refine ⟨payload.drop (trueLengthSize + ofLeBytes (slice payload 0 trueLengthSize)), ?_, ?_⟩
    · rw [hbody, htrueLength, ← append_assoc,
        slice_append_slice (Nat.zero_le _) (Nat.le_add_right _ _), slice_zero_append_drop]
    · rw [hbody]
      exact paddedPayloadLen_eq_ok.1 hpadded
  · rintro ⟨filler, hsplit, hleast⟩
    -- the payload serves as the random bytes that it is padded with
    have hfiller : payload.drop (trueLengthSize + plaintext.length) = filler := by
      rw [hsplit, ← append_assoc]
      exact drop_left' (by rw [length_append, length_leBytes])
    have hpadded : paddedPayload plaintext payload = payload := by
      rw [paddedPayload, hfiller, ← hsplit]
    have hrecovered := plaintextFromPaddedPayload_padded (paddedPayloadLen_eq_ok.2 hleast)
    rwa [hpadded] at hrecovered

end Layout

section Panics

/-- What ends in a panic. -/
inductive Fault
  | indexOutOfRange
  | rangeOutOfRange
  | overflow
  deriving DecidableEq

abbrev Checked (α : Type) : Type := Except Fault α

def byteAt (bytes : Bytes) (index : Nat) : Checked UInt8 :=
  match bytes[index]? with
  | some b => .ok b
  | none => .error .indexOutOfRange

def range (bytes : Bytes) (start stop : Nat) : Checked Bytes :=
  if start ≤ stop ∧ stop ≤ bytes.length then .ok (slice bytes start stop) else .error .rangeOutOfRange

def subtract (a b : Nat) : Checked Nat := if b ≤ a then .ok (a - b) else .error .overflow

def word (n : Nat) : Checked Nat := if n < 2 ^ 64 then .ok n else .error .overflow

/-- An array of the range's bytes, or the error for a range of another size. -/
def fixedRange (size : Nat) (bytes : Bytes) (start stop : Nat) :
    Checked (Option (FixedBytes size)) := do
  return FixedBytes.fromBytes size (← range bytes start stop)

def parseChecked (envelope : Bytes) : Checked (Except CryptoError ParsedEnvelope) := do
  if envelope.length < minEnvelopeSize then return .error (.envelopeTooShort envelope.length minEnvelopeSize)
  if (← range envelope 0 magic.length) ≠ magic then return .error .invalidMagic
  let version ← byteAt envelope magic.length
  if version ≠ EnvelopeModel.version then return .error (.unsupportedVersion version)
  let suite ← byteAt envelope (magic.length + 1)
  if suite ≠ suiteParanoidV1 then return .error (.unsupportedSuite suite)
  let ciphertextLen ← subtract envelope.length headerSize
  if ciphertextLen < minPaddedPayloadSize + cascadeTagOverhead then
    return .error (.envelopeTooShort envelope.length minEnvelopeSize)
  let paddedPayloadLen ← subtract ciphertextLen cascadeTagOverhead
  if !isValidPaddedPayloadLen paddedPayloadLen then return .error (.invalidEnvelopeLength envelope.length)
  let header ← range envelope 0 headerSize
  let some hkdfSalt ← fixedRange saltSize envelope hkdfSaltOffset
    blake3SaltOffset | return .error (.invalidEnvelopeLength envelope.length)
  let some blake3Salt ← fixedRange saltSize envelope blake3SaltOffset xchachaNonceOffset
    | return .error (.invalidEnvelopeLength envelope.length)
  let some xchachaNonce ← fixedRange xchacha20Poly1305NonceSize
    envelope xchachaNonceOffset aesGcmSivNonceOffset
    | return .error (.invalidEnvelopeLength envelope.length)
  let some aesGcmSivNonce ← fixedRange aes256GcmSivNonceSize envelope aesGcmSivNonceOffset headerSize
    | return .error (.invalidEnvelopeLength envelope.length)
  let ciphertext ← range envelope headerSize envelope.length
  return .ok ⟨header, ⟨hkdfSalt, blake3Salt, xchachaNonce, aesGcmSivNonce⟩, ciphertext⟩

def paddedPayloadLenChecked (plaintextLen : Nat) : Checked (Except CryptoError Nat) := do
  if maxPlaintextSize < plaintextLen then return .error (.plaintextTooLarge plaintextLen maxPlaintextSize)
  -- an addition that is checked for overflow
  if 2 ^ 64 ≤ trueLengthSize + plaintextLen then return .error (.plaintextTooLarge plaintextLen maxPlaintextSize)
  let bucket ← word (nextPowerOfTwo (trueLengthSize + plaintextLen))
  return .ok (max bucket minPaddedPayloadSize)

def plaintextChecked (payload : Bytes) : Checked (Except CryptoError Bytes) := do
  if !isValidPaddedPayloadLen payload.length then return .error .decryptionFailed
  let plaintextLen := ofLeBytes (← range payload 0 trueLengthSize)
  if maxPlaintextSize < plaintextLen then return .error .decryptionFailed
  match ← paddedPayloadLenChecked plaintextLen with
  | .error _ => return .error .decryptionFailed
  | .ok canonicalPaddedLen =>
      if canonicalPaddedLen ≠ payload.length then return .error .decryptionFailed
      let plaintextEnd ← word (trueLengthSize + plaintextLen)
      return .ok (← range payload trueLengthSize plaintextEnd)

variable {bytes envelope payload : Bytes} {start stop index size : Nat}

theorem range_ok (hstart : start ≤ stop) (hstop : stop ≤ bytes.length) :
    range bytes start stop = .ok (slice bytes start stop) :=
  if_pos ⟨hstart, hstop⟩

theorem byteAt_ok (h : index < bytes.length) : byteAt bytes index = .ok (bytes.getD index 0) := by
  rw [byteAt, getElem?_eq_getElem h, getD_eq_getElem?_getD, getElem?_eq_getElem h]
  rfl

theorem fixedRange_ok (hstart : start ≤ stop) (hstop : stop ≤ bytes.length) :
    fixedRange size bytes start stop = .ok (FixedBytes.fromBytes size (slice bytes start stop)) := by
  rw [fixedRange, range_ok hstart hstop]
  rfl

/-- No slice and no index of the parser is out of range. -/
theorem parseChecked_eq (envelope : Bytes) :
    parseChecked envelope = .ok (ParsedEnvelope.parse envelope) := by
  rw [parseChecked, ParsedEnvelope.parse]
  by_cases hshort : envelope.length < minEnvelopeSize
  · rw [if_pos hshort, if_pos hshort]
    rfl
  have hmin : minEnvelopeSize = headerSize + (minPaddedPayloadSize + cascadeTagOverhead) := rfl
  have hheader : headerSize ≤ envelope.length := by omega
  have hfixed : magic.length + 2 ≤ headerSize := by decide
  have hfields : hkdfSaltOffset ≤ blake3SaltOffset ∧ blake3SaltOffset ≤ xchachaNonceOffset ∧
      xchachaNonceOffset ≤ aesGcmSivNonceOffset ∧ aesGcmSivNonceOffset ≤ headerSize := by decide
  obtain ⟨hhkdf, hblake3, hxchacha, haesGcmSiv⟩ := hfields
  rw [if_neg hshort, if_neg hshort, range_ok (Nat.zero_le _) (by omega), ok_bind]
  by_cases hmagic : slice envelope 0 magic.length ≠ magic
  · rw [if_pos hmagic, if_pos hmagic]
    rfl
  rw [if_neg hmagic, if_neg hmagic, byteAt_ok (by omega), ok_bind]
  by_cases hversion : envelope.getD magic.length 0 ≠ version
  · rw [if_pos hversion, if_pos hversion]
    rfl
  rw [if_neg hversion, if_neg hversion, byteAt_ok (by omega), ok_bind]
  by_cases hsuite : envelope.getD (magic.length + 1) 0 ≠ suiteParanoidV1
  · rw [if_pos hsuite, if_pos hsuite]
    rfl
  rw [if_neg hsuite, if_neg hsuite, subtract, if_pos hheader, ok_bind]
  by_cases hciphertext : envelope.length - headerSize < minPaddedPayloadSize + cascadeTagOverhead
  · rw [if_pos hciphertext, if_pos hciphertext]
    rfl
  rw [if_neg hciphertext, if_neg hciphertext, subtract, if_pos (by omega), ok_bind]
  by_cases hvalid : (!isValidPaddedPayloadLen
    (envelope.length - headerSize - cascadeTagOverhead)) = true
  · rw [if_pos hvalid, if_pos hvalid]
    rfl
  rw [if_neg hvalid, if_neg hvalid, range_ok (Nat.zero_le _) hheader,
    ok_bind, fixedRange_ok hhkdf (by omega), ok_bind, parseHeaderFields]
  cases FixedBytes.fromBytes saltSize (slice envelope hkdfSaltOffset blake3SaltOffset) with
  | none => rfl
  | some hkdfSalt =>
      dsimp only
      rw [fixedRange_ok hblake3 (by omega), ok_bind]
      cases FixedBytes.fromBytes saltSize (slice envelope blake3SaltOffset xchachaNonceOffset) with
      | none => rfl
      | some blake3Salt =>
          dsimp only
          rw [fixedRange_ok hxchacha (by omega), ok_bind]
          cases FixedBytes.fromBytes xchacha20Poly1305NonceSize
            (slice envelope xchachaNonceOffset aesGcmSivNonceOffset) with
          | none => rfl
          | some xchachaNonce =>
              dsimp only
              rw [fixedRange_ok haesGcmSiv hheader, ok_bind]
              cases FixedBytes.fromBytes aes256GcmSivNonceSize
                (slice envelope aesGcmSivNonceOffset headerSize) with
              | none => rfl
              | some aesGcmSivNonce =>
                  have hrest : slice envelope headerSize envelope.length =
                    envelope.drop headerSize := by
                    rw [slice, take_of_length_le (by rw [length_drop])]
                  dsimp only
                  rw [range_ok hheader le_rfl, ok_bind, hrest]
                  rfl

theorem word_ok {n : Nat} (h : n < 2 ^ 64) : word n = .ok n := if_pos h

theorem nextPowerOfTwo_lt {plaintextLen : Nat} (h : plaintextLen ≤ maxPlaintextSize) :
    nextPowerOfTwo (trueLengthSize + plaintextLen) ≤ 2 ^ 21 := by
  have hsize : trueLengthSize + maxPlaintextSize ≤ 2 ^ 21 := by decide
  exact (nextPowerOfTwo_least _).2 ⟨by omega, 21, rfl⟩

theorem paddedPayloadLenChecked_eq (plaintextLen : Nat) :
    paddedPayloadLenChecked plaintextLen = .ok (paddedPayloadLenForPlaintextLen plaintextLen) := by
  rw [paddedPayloadLenChecked, paddedPayloadLenForPlaintextLen]
  by_cases hlong : maxPlaintextSize < plaintextLen
  · rw [if_pos hlong, if_pos hlong]
    rfl
  have hbucket := nextPowerOfTwo_lt (Nat.not_lt.1 hlong)
  have hsize : trueLengthSize + maxPlaintextSize < 2 ^ 64 := by decide
  rw [if_neg hlong, if_neg hlong, if_neg (by omega), word_ok (by omega)]
  rfl

theorem plaintextChecked_eq (payload : Bytes) :
    plaintextChecked payload = .ok (plaintextFromPaddedPayload payload) := by
  rw [plaintextChecked, plaintextFromPaddedPayload]
  by_cases hvalid : isValidPaddedPayloadLen payload.length = true
  swap
  · have hrefused : (!isValidPaddedPayloadLen payload.length) = true := by
      rw [(Bool.not_eq_true _).mp hvalid]; rfl
    rw [if_pos hrefused, if_pos hrefused]
    rfl
  have hmin := (isValidPaddedPayloadLen_bounds hvalid).1
  have hfield : trueLengthSize ≤ minPaddedPayloadSize := by decide
  have haccepted : ¬(!isValidPaddedPayloadLen payload.length) = true := by rw [hvalid]; decide
  rw [if_neg haccepted, if_neg haccepted, range_ok (Nat.zero_le _) (by omega), ok_bind]
  generalize ofLeBytes (slice payload 0 trueLengthSize) = plaintextLen
  dsimp only
  by_cases hlong : maxPlaintextSize < plaintextLen
  · rw [if_pos hlong, if_pos hlong]
    rfl
  rw [if_neg hlong, if_neg hlong, paddedPayloadLenChecked_eq, ok_bind]
  cases hpadded : paddedPayloadLenForPlaintextLen plaintextLen with
  | error error => rfl
  | ok canonicalPaddedLen =>
      obtain ⟨-, hroom, -⟩ := paddedPayloadLen_spec hpadded
      have hsize : trueLengthSize + maxPlaintextSize < 2 ^ 64 := by decide
      by_cases hcanonical : canonicalPaddedLen = payload.length
      · have hsame : (Except.ok canonicalPaddedLen : Except CryptoError Nat) =
          .ok payload.length := by rw [hcanonical]
        rw [if_neg (not_not.2 hsame)]
        dsimp only
        rw [if_neg (not_not.2 hcanonical),
          word_ok (by omega), ok_bind, range_ok (Nat.le_add_right _ _) (by omega), ok_bind]
        rfl
      · have hother : (Except.ok canonicalPaddedLen : Except CryptoError Nat) ≠ .ok payload.length :=
          fun h => hcanonical (Except.ok.inj h)
        rw [if_pos hother]
        dsimp only
        rw [if_pos hcanonical]
        rfl

end Panics

/-- The parser takes the layout of version 1, a padded payload is the least bucket that holds the length and the plaintext, and a
plaintext is recovered from what is padded so, whatever the filler; nothing of it panics. -/
theorem format_exact :
    (∀ envelope, parseChecked envelope = .ok (ParsedEnvelope.parse envelope) ∧
      ∀ parsed, ParsedEnvelope.parse envelope = .ok parsed ↔ IsEnvelope envelope parsed) ∧
    (∀ plaintextLen, paddedPayloadLenChecked plaintextLen =
      .ok (paddedPayloadLenForPlaintextLen plaintextLen) ∧
      (plaintextLen ≤ maxPlaintextSize → ∃ bucket,
        IsLeast {p | trueLengthSize + plaintextLen ≤ p ∧ ∃ k, p = 2 ^ k} bucket ∧
        paddedPayloadLenForPlaintextLen plaintextLen = .ok (max bucket minPaddedPayloadSize) ∧
        max bucket minPaddedPayloadSize ≤ maxPaddedPayloadSize)) ∧
    ∀ payload, plaintextChecked payload = .ok (plaintextFromPaddedPayload payload) ∧
      ∀ plaintext, plaintextFromPaddedPayload payload = .ok plaintext ↔
        ∃ filler, IsPadded payload plaintext filler := by
  refine ⟨fun envelope => ⟨parseChecked_eq envelope, fun parsed => parse_iff⟩,
    fun plaintextLen => ⟨paddedPayloadLenChecked_eq plaintextLen, ?_⟩,
    fun payload => ⟨plaintextChecked_eq payload, fun plaintext => plaintextFromPaddedPayload_iff⟩⟩
  intro h
  have hpadded := (paddedPayloadLen_eq plaintextLen).1 h
  exact ⟨_, nextPowerOfTwo_least _, hpadded,
    (isValidPaddedPayloadLen_bounds (paddedPayloadLen_spec hpadded).2.2).2⟩

def dirtyPayload : Bytes := leBytes trueLengthSize 0 ++ replicate 248 1

/-- A filler of ones is not looked at. -/
theorem dirtyPayload_recovered :
    plaintextFromPaddedPayload dirtyPayload = .ok [] ∧
      ¬∃ zeros, dirtyPayload = leBytes trueLengthSize 0 ++ replicate zeros 0 := by
  constructor
  · decide +kernel
  · rintro ⟨zeros, h⟩
    rw [dirtyPayload] at h
    have hfiller : (replicate 248 1 : Bytes) = replicate zeros 0 := append_cancel_left h
    have hone : (1 : UInt8) ∈ replicate zeros 0 := hfiller ▸ mem_replicate.2 ⟨by decide, rfl⟩
    exact absurd (eq_of_mem_replicate hone) (by decide)

end Paranoid.EnvelopeFormat
