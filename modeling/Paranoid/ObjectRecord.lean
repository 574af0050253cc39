import Paranoid.EnvelopeRotation

namespace Paranoid.ObjectRecord

open ByteCodecs CryptoPrimitives List
open Postgres (bind_eq_ok guard_eq_ok ok_bind)

def objectRecordVersion : UInt8 := 1

def objectRecordHeaderSize : Nat := 5

def objectRecordOverhead : Nat := objectRecordHeaderSize + xchacha20Poly1305NonceSize + tagSize

def maxObjectRecordPlaintextSize : Nat := 16 * 1024 * 1024

def maxObjectRecordSize : Nat := maxObjectRecordPlaintextSize + objectRecordOverhead

def maxObjectRecordAssociatedDataSuffixSize : Nat := 1024

def nonceOffset : Nat := objectRecordHeaderSize

def ciphertextOffset : Nat := nonceOffset + xchacha20Poly1305NonceSize

inductive Error
  | plaintextTooLarge (actual max : Nat)
  | associatedDataTooLarge (actual max : Nat)
  | unsupportedObjectRecordVersion (version : UInt8)
  | objectRecordTooShort (actual min : Nat)
  | objectRecordTooLarge (actual max : Nat)
  | injectedRandomFillFailed
  | encryptionFailed
  | decryptionFailed
  deriving DecidableEq

structure ObjectRecordHeader where
  version : UInt8
  keyGeneration : UInt32
  deriving DecidableEq

abbrev XChaCha20Poly1305 : Type := Aead xchacha20Poly1305NonceSize

section Records

def validateRecordLen (len : Nat) : Except Error Unit := do
  if len < objectRecordOverhead then throw (.objectRecordTooShort len objectRecordOverhead)
  if maxObjectRecordSize < len then throw (.objectRecordTooLarge len maxObjectRecordSize)

def validateAssociatedDataSuffixLen (len : Nat) : Except Error Unit := do
  if maxObjectRecordAssociatedDataSuffixSize < len then
    throw (.associatedDataTooLarge len maxObjectRecordAssociatedDataSuffixSize)

def buildAssociatedData (role : UInt8) (header suffix : Bytes) : Bytes := role :: (header ++ suffix)

/-- The header as it is stored. -/
def headerBytes (keyGeneration : UInt32) : Bytes := objectRecordVersion :: leBytes 4 keyGeneration.toNat

def parseObjectRecordHeader (record : Bytes) : Except Error ObjectRecordHeader := do
  validateRecordLen record.length
  let version := record.getD 0 0
  if version ≠ objectRecordVersion then throw (.unsupportedObjectRecordVersion version)
  return ⟨version, UInt32.ofNat (ofLeBytes (slice record 1 objectRecordHeaderSize))⟩

variable (xchacha : XChaCha20Poly1305)

def sealObjectRecord (key : Key32) (keyGeneration : UInt32)
    (associatedDataRole : UInt8) (associatedDataSuffix plaintext : Bytes)
    (fillRandom : FillRandom Error) : Except Error Bytes := do
  if maxObjectRecordPlaintextSize < plaintext.length then throw (.plaintextTooLarge plaintext.length maxObjectRecordPlaintextSize)
  validateAssociatedDataSuffixLen associatedDataSuffix.length
  let header := headerBytes keyGeneration
  let nonce ← fillRandom 0 xchacha20Poly1305NonceSize
  let associatedData := buildAssociatedData associatedDataRole header associatedDataSuffix
  match xchacha.encrypt key nonce associatedData plaintext with
  | none => throw .encryptionFailed
  | some ciphertext => return header ++ nonce.val ++ ciphertext

def openObjectRecord (key : Key32) (record : Bytes) (associatedDataRole : UInt8)
    (associatedDataSuffix : Bytes) : Except Error Bytes := do
  let _ ← parseObjectRecordHeader record
  validateAssociatedDataSuffixLen associatedDataSuffix.length
  let header := slice record 0 objectRecordHeaderSize
  match FixedBytes.fromBytes xchacha20Poly1305NonceSize (slice record nonceOffset ciphertextOffset) with
  | none => throw .decryptionFailed
  | some nonce =>
      let associatedData := buildAssociatedData associatedDataRole header associatedDataSuffix
      match xchacha.decrypt key nonce associatedData (record.drop ciphertextOffset) with
      | none => throw .decryptionFailed
      | some plaintext => return plaintext

/-- What the callers do: the header says which of their keys opens the record. -/
def openWithKeys (keys : UInt32 → Option Key32) (record : Bytes)
    (associatedDataRole : UInt8) (associatedDataSuffix : Bytes) :
    Except Error (Option Bytes) := do
  let header ← parseObjectRecordHeader record
  match keys header.keyGeneration with
  | none => return none
  | some key =>
      return some (← openObjectRecord xchacha key record associatedDataRole associatedDataSuffix)

end Records

/-- A call that sealed a payload, with the nonce it drew and the record it returned. -/
structure Sealing (xchacha : XChaCha20Poly1305) where
  key : Key32
  keyGeneration : UInt32
  role : UInt8
  suffix : Bytes
  plaintext : Bytes
  fillRandom : FillRandom Error
  nonce : FixedBytes xchacha20Poly1305NonceSize
  record : Bytes
  drawn : fillRandom 0 xchacha20Poly1305NonceSize = .ok nonce
  sealed : sealObjectRecord xchacha key keyGeneration role suffix plaintext fillRandom = .ok record

section Sealings

variable {xchacha : XChaCha20Poly1305} {s t : Sealing xchacha}
  {made : List (Sealing xchacha)} {key : Key32} {record suffix plaintext : Bytes}
  {role : UInt8} {generation : UInt32} {keys : UInt32 → Option Key32}

def Sealing.query (s : Sealing xchacha) : Query xchacha20Poly1305NonceSize where
  key := s.key
  nonce := s.nonce
  associatedData := buildAssociatedData s.role (headerBytes s.keyGeneration) s.suffix
  plaintext := s.plaintext

/-- What was encrypted by the calls of the history. -/
def Made (made : List (Sealing xchacha)) (query : Query xchacha20Poly1305NonceSize) : Prop :=
  ∃ s ∈ made, query = s.query

theorem validateSuffix_eq_ok {len : Nat} :
    validateAssociatedDataSuffixLen len = .ok () ↔ len ≤ maxObjectRecordAssociatedDataSuffixSize := by
  rw [validateAssociatedDataSuffixLen, Postgres.lastGuard_eq_ok, Nat.not_lt]

theorem validateRecordLen_eq_ok {len : Nat} :
    validateRecordLen len = .ok () ↔ objectRecordOverhead ≤ len ∧ len ≤ maxObjectRecordSize := by
  simp only [validateRecordLen, guard_eq_ok, Postgres.lastGuard_eq_ok, Nat.not_lt]

@[simp] theorem length_headerBytes (generation : UInt32) :
    (headerBytes generation).length = objectRecordHeaderSize := by
  rw [headerBytes, length_cons, length_leBytes]
  rfl

theorem sealed_parts (s : Sealing xchacha) : s.plaintext.length ≤ maxObjectRecordPlaintextSize ∧
    s.suffix.length ≤ maxObjectRecordAssociatedDataSuffixSize ∧
    ∃ ciphertext, xchacha.ciphertext s.query = some ciphertext ∧
      s.record = headerBytes s.keyGeneration ++ s.nonce.val ++ ciphertext := by
  have hsealed := s.sealed
  simp only [sealObjectRecord, guard_eq_ok, bind_eq_ok, Nat.not_lt] at hsealed
  obtain ⟨hplaintext, ⟨⟩, hsuffix, nonce, hnonce, hcipher⟩ := hsealed
  obtain rfl := Except.ok.inj (hnonce.symm.trans s.drawn)
  refine ⟨hplaintext, validateSuffix_eq_ok.1 hsuffix, ?_⟩
  cases hciphertext : xchacha.encrypt s.key s.nonce
    (buildAssociatedData s.role (headerBytes s.keyGeneration) s.suffix) s.plaintext with
  | none =>
      rw [hciphertext] at hcipher
      cases hcipher
  | some ciphertext =>
      rw [hciphertext] at hcipher
      exact ⟨ciphertext, hciphertext, (Except.ok.inj hcipher).symm⟩

/-- Role and header have a fixed size, so that nothing of them is taken for the suffix. -/
theorem associatedData_inj {other : UInt8} {header header' suffix' : Bytes}
    (hlength : header.length = header'.length)
    (h : buildAssociatedData role header suffix = buildAssociatedData other header' suffix') :
    role = other ∧ header = header' ∧ suffix = suffix' := by
  obtain ⟨hrole, hrest⟩ := cons.inj h
  exact ⟨hrole, append_inj hrest hlength⟩

theorem parseHeader_eq_ok {header : ObjectRecordHeader} : parseObjectRecordHeader record = .ok header ↔
    (objectRecordOverhead ≤ record.length ∧ record.length ≤ maxObjectRecordSize) ∧
      record.getD 0 0 = objectRecordVersion ∧
      header = ⟨objectRecordVersion,
        UInt32.ofNat (ofLeBytes (slice record 1 objectRecordHeaderSize))⟩ := by
  simp only [parseObjectRecordHeader, bind_eq_ok, guard_eq_ok, not_not]
  constructor
  · rintro ⟨⟨⟩, hlength, hversion, h⟩
    exact ⟨validateRecordLen_eq_ok.1 hlength, hversion, by rw [← Except.ok.inj h, hversion]⟩
  · rintro ⟨hlength, hversion, rfl⟩
    exact ⟨(), validateRecordLen_eq_ok.2 hlength, hversion, by rw [hversion]; rfl⟩

theorem openObjectRecord_eq_ok : openObjectRecord xchacha key record role suffix = .ok plaintext ↔
    (∃ header, parseObjectRecordHeader record = .ok header) ∧
      suffix.length ≤ maxObjectRecordAssociatedDataSuffixSize ∧
      ∃ nonce : FixedBytes xchacha20Poly1305NonceSize,
        slice record nonceOffset ciphertextOffset = nonce.val ∧
        xchacha.decrypt key nonce (buildAssociatedData role
          (slice record 0 objectRecordHeaderSize) suffix) (record.drop ciphertextOffset) =
          some plaintext := by
  simp only [openObjectRecord, bind_eq_ok]
  constructor
  · rintro ⟨header, hheader, ⟨⟩, hsuffix, h⟩
    cases hnonce : FixedBytes.fromBytes xchacha20Poly1305NonceSize
      (slice record nonceOffset ciphertextOffset) with
    | none =>
        rw [hnonce] at h
        cases h
    | some nonce =>
        rw [hnonce] at h
        dsimp only at h
        cases hopened : xchacha.decrypt key nonce
          (buildAssociatedData role (slice record 0 objectRecordHeaderSize) suffix)
            (record.drop ciphertextOffset) with
        | none =>
            rw [hopened] at h
            cases h
        | some opened =>
            rw [hopened] at h
            cases h
            exact ⟨⟨header, hheader⟩, validateSuffix_eq_ok.1 hsuffix,
              nonce, (fromBytes_eq_some.1 hnonce).symm, hopened⟩
  · rintro ⟨⟨header, hheader⟩, hsuffix, nonce, hnonce, hopened⟩
    refine ⟨header, hheader, (), validateSuffix_eq_ok.2 hsuffix, ?_⟩
    rw [hnonce, fromBytes_val]
    dsimp only
    rw [hopened]
    rfl

theorem record_slices (generation : UInt32)
    (nonce : FixedBytes xchacha20Poly1305NonceSize) (ciphertext : Bytes) :
    slice (headerBytes generation ++ nonce.val ++ ciphertext) 0 objectRecordHeaderSize =
      headerBytes generation ∧
      slice (headerBytes generation ++ nonce.val ++ ciphertext) nonceOffset ciphertextOffset =
        nonce.val ∧
        (headerBytes generation ++ nonce.val ++ ciphertext).drop ciphertextOffset = ciphertext := by
  have hheader := length_headerBytes generation
  have hnonce := nonce.property
  refine ⟨?_, ?_, ?_⟩
  · exact slice_eq_of_split [] (nonce.val ++ ciphertext) (by simp) rfl (by rw [hheader, Nat.zero_add])
  · exact slice_eq_of_split (headerBytes generation) ciphertext rfl hheader (by rw [hnonce]; rfl)
  · exact drop_left' (by rw [length_append, hheader, hnonce]; rfl)

section Opening

variable (hideal : xchacha.Ideal (Made made))

include hideal

theorem Sealing.parseHeader (s : Sealing xchacha) :
    parseObjectRecordHeader s.record = .ok ⟨objectRecordVersion, s.keyGeneration⟩ := by
  obtain ⟨hplaintext, -, ciphertext, hciphertext, hrecord⟩ := sealed_parts s
  have hlength : ciphertext.length = s.plaintext.length + tagSize := hideal.length hciphertext
  have htotal : s.record.length = objectRecordOverhead + s.plaintext.length := by
    rw [hrecord, length_append, length_append, length_headerBytes,
      s.nonce.property, hlength, objectRecordOverhead]
    omega
  have hgeneration : slice s.record 1 objectRecordHeaderSize = leBytes 4 s.keyGeneration.toNat := by
    rw [hrecord]
    exact slice_eq_of_split [objectRecordVersion] (s.nonce.val ++ ciphertext)
      (by simp [headerBytes]) rfl (by rw [length_leBytes]; rfl)
  have hversion : s.record.getD 0 0 = objectRecordVersion := by
    rw [hrecord]
    rfl
  rw [parseHeader_eq_ok, htotal, hgeneration,
    ofLeBytes_leBytes s.keyGeneration.toNat_lt, UInt32.ofNat_toNat, maxObjectRecordSize]
  exact ⟨⟨by omega, by omega⟩, hversion, rfl⟩

/-- A record is opened to what was sealed in it, where it was sealed so. -/
theorem openObjectRecord_iff : openObjectRecord xchacha key record role suffix = .ok plaintext ↔
    ∃ s ∈ made, s.record = record ∧ s.key = key ∧ s.role = role ∧
      s.suffix = suffix ∧ s.plaintext = plaintext := by
  rw [openObjectRecord_eq_ok]
  constructor
  · rintro ⟨⟨header, hheader⟩, -, nonce, hnonce, hopened⟩
    obtain ⟨⟨s, hs, hquery⟩, hciphertext⟩ := hideal.decrypts.1 hopened
    rw [hquery] at hciphertext
    obtain ⟨hkey, hnonceEq, hassociated, hplaintext⟩ := Query.mk.inj hquery
    obtain ⟨-, -, ciphertext, hsealed, hrecord⟩ := sealed_parts s
    obtain rfl := Option.some.inj (hsealed.symm.trans hciphertext)
    have hmin := (parseHeader_eq_ok.1 hheader).1.1
    have hslice : (slice record 0 objectRecordHeaderSize).length =
      (headerBytes s.keyGeneration).length := by
      rw [length_slice (le_trans (by decide) hmin), length_headerBytes, Nat.sub_zero]
    obtain ⟨hrole, hheaderEq, hsuffixEq⟩ := associatedData_inj hslice hassociated
    have hfront : slice record 0 objectRecordHeaderSize ++
      slice record nonceOffset ciphertextOffset = slice record 0 ciphertextOffset :=
      slice_append_slice (Nat.zero_le _) (by decide)
    refine ⟨s, hs, ?_, hkey.symm, hrole.symm, hsuffixEq.symm, hplaintext.symm⟩
    rw [hrecord, ← hheaderEq, ← hnonceEq, ← hnonce, hfront]
    exact slice_zero_append_drop record _
  · rintro ⟨s, hs, rfl, rfl, rfl, rfl, rfl⟩
    obtain ⟨-, hsuffix, ciphertext, hsealed, hrecord⟩ := sealed_parts s
    obtain ⟨hheader, hnonce, hrest⟩ := record_slices s.keyGeneration s.nonce ciphertext
    refine ⟨⟨_, s.parseHeader hideal⟩, hsuffix, s.nonce, ?_, ?_⟩
    · rw [hrecord, hnonce]
    · rw [hrecord, hheader, hrest]
      exact hideal.decrypts.2 ⟨⟨s, hs, rfl⟩, hsealed⟩

/-- One record is not sealed twice for different places. -/
theorem sealing_unique (hs : s ∈ made) (ht : t ∈ made) (h : s.record = t.record) :
    s.key = t.key ∧ s.role = t.role ∧ s.suffix = t.suffix ∧ s.plaintext = t.plaintext := by
  obtain ⟨-, -, ciphertext, hsealed, hrecord⟩ := sealed_parts s
  obtain ⟨-, -, ciphertext', hsealed', hrecord'⟩ := sealed_parts t
  obtain ⟨hheader, hnonce, hrest⟩ := record_slices s.keyGeneration s.nonce ciphertext
  obtain ⟨hheader', hnonce', hrest'⟩ := record_slices t.keyGeneration t.nonce ciphertext'
  rw [← hrecord, h, hrecord', hheader'] at hheader
  rw [← hrecord, h, hrecord', hnonce'] at hnonce
  rw [← hrecord, h, hrecord', hrest'] at hrest
  subst hrest
  obtain ⟨hkey, hassociated⟩ := hideal.binds ⟨s, hs, rfl⟩ ⟨t, ht, rfl⟩ hsealed hsealed'
  obtain ⟨hrole, -, hsuffix⟩ :=
    associatedData_inj (by rw [length_headerBytes, length_headerBytes]) hassociated
  have hopened : xchacha.decrypt s.key s.nonce s.query.associatedData ciphertext' = some s.plaintext :=
    hideal.decrypts.2 ⟨⟨s, hs, rfl⟩, hsealed⟩
  have hopened' : xchacha.decrypt t.key t.nonce t.query.associatedData ciphertext' = some t.plaintext :=
    hideal.decrypts.2 ⟨⟨t, ht, rfl⟩, hsealed'⟩
  have hkeys : s.key = t.key := hkey
  have hnonces : s.nonce = t.nonce := Subtype.ext hnonce.symm
  rw [hkeys, hnonces, hassociated, hopened'] at hopened
  exact ⟨hkey, hrole, hsuffix, (Option.some.inj hopened).symm⟩

end Opening

theorem openWithKeys_eq_ok : openWithKeys xchacha keys record role suffix = .ok (some plaintext) ↔
    ∃ header key, parseObjectRecordHeader record = .ok header ∧ keys header.keyGeneration = some key ∧
      openObjectRecord xchacha key record role suffix = .ok plaintext := by
  rw [openWithKeys, bind_eq_ok]
  constructor
  · rintro ⟨header, hheader, h⟩
    cases hkey : keys header.keyGeneration with
    | none =>
        rw [hkey] at h
        cases h
    | some key =>
        rw [hkey] at h
        obtain ⟨opened, hopened, h⟩ := bind_eq_ok.1 h
        cases h
        exact ⟨header, key, hheader, hkey, hopened⟩
  · rintro ⟨header, key, hheader, hkey, hopened⟩
    refine ⟨header, hheader, ?_⟩
    rw [hkey]
    dsimp only
    rw [hopened, ok_bind]
    rfl

/-- A record that was sealed is opened to its payload with its key, its role and its suffix, and with no other; and nothing is opened
but records that were sealed, byte for byte. -/
theorem openObjectRecord_exact (hideal : xchacha.Ideal (Made made)) :
    (∀ s ∈ made, ∀ keys, keys s.keyGeneration = some s.key →
      openWithKeys xchacha keys s.record s.role s.suffix = .ok (some s.plaintext)) ∧
    (∀ s ∈ made, ∀ key role suffix plaintext,
      openObjectRecord xchacha key s.record role suffix = .ok plaintext ↔
      key = s.key ∧ role = s.role ∧ suffix = s.suffix ∧ plaintext = s.plaintext) ∧
    (∀ key record role suffix plaintext,
      openObjectRecord xchacha key record role suffix = .ok plaintext →
      ∃ s ∈ made, record = s.record ∧ key = s.key ∧ role = s.role ∧
        suffix = s.suffix ∧ plaintext = s.plaintext) ∧
    ∀ keys record role suffix plaintext,
      openWithKeys xchacha keys record role suffix = .ok (some plaintext) →
      ∃ s ∈ made, record = s.record ∧ keys s.keyGeneration = some s.key ∧
        role = s.role ∧ suffix = s.suffix ∧ plaintext = s.plaintext := by
  refine ⟨fun s hs keys hkeys => ?_, fun s hs key role suffix plaintext => ⟨fun h => ?_, ?_⟩,
    fun key record role suffix plaintext h => ?_,
    fun keys record role suffix plaintext h => ?_⟩
  · exact openWithKeys_eq_ok.2 ⟨_, s.key, s.parseHeader hideal, hkeys,
      (openObjectRecord_iff hideal).2 ⟨s, hs, rfl, rfl, rfl, rfl, rfl⟩⟩
  · obtain ⟨t, ht, hrecord, rfl, rfl, rfl, rfl⟩ := (openObjectRecord_iff hideal).1 h
    exact sealing_unique hideal ht hs hrecord
  · rintro ⟨rfl, rfl, rfl, rfl⟩
    exact (openObjectRecord_iff hideal).2 ⟨s, hs, rfl, rfl, rfl, rfl, rfl⟩
  · obtain ⟨s, hs, rfl, rfl, rfl, rfl, rfl⟩ := (openObjectRecord_iff hideal).1 h
    exact ⟨s, hs, rfl, rfl, rfl, rfl, rfl⟩
  · obtain ⟨header, key, hheader, hkey, hopened⟩ := openWithKeys_eq_ok.1 h
    obtain ⟨s, hs, rfl, rfl, rfl, rfl, rfl⟩ := (openObjectRecord_iff hideal).1 hopened
    obtain rfl := Except.ok.inj (hheader.symm.trans (s.parseHeader hideal))
    exact ⟨s, hs, rfl, hkey, rfl, rfl, rfl⟩

end Sealings

section Example

theorem length_entryKey : (replicate keySize (9 : UInt8)).length = keySize := length_replicate

def entryKey : Key32 := ⟨replicate keySize 9, length_entryKey⟩

theorem length_threes (n : Nat) : (replicate n (3 : UInt8)).length = n := length_replicate

def entryNonce : FixedBytes xchacha20Poly1305NonceSize :=
  ⟨replicate xchacha20Poly1305NonceSize 3, length_threes xchacha20Poly1305NonceSize⟩

def entryQuery : Query xchacha20Poly1305NonceSize where
  key := entryKey
  nonce := entryNonce
  associatedData := buildAssociatedData 7 (headerBytes 2) [5, 6]
  plaintext := [1, 2, 3]

def entrySealing : Sealing (EnvelopeRotation.recordedCipher entryQuery) where
  key := entryKey
  keyGeneration := 2
  role := 7
  suffix := [5, 6]
  plaintext := [1, 2, 3]
  fillRandom _ n := .ok ⟨replicate n 3, length_threes n⟩
  nonce := entryNonce
  record := headerBytes 2 ++ entryNonce.val ++ ([1, 2, 3] ++ replicate tagSize 0)
  drawn := rfl
  sealed := rfl

/-- A record is opened with the key of its generation, and not for another role. -/
theorem openObjectRecord_exact_entry :
    openWithKeys (EnvelopeRotation.recordedCipher entryQuery)
      (fun generation => if generation = 2 then some entryKey else none)
        entrySealing.record 7 [5, 6] = .ok (some [1, 2, 3]) ∧
      openObjectRecord (EnvelopeRotation.recordedCipher entryQuery)
        entryKey entrySealing.record 8 [5, 6] ≠ .ok [1, 2, 3] := by
  have hmade : ∀ query, Made [entrySealing] query ↔ query = entryQuery := by
    intro query
    simp only [Made, mem_singleton, exists_eq_left]
    rfl
  have hexact := openObjectRecord_exact (EnvelopeRotation.recordedCipher_ideal hmade)
  refine ⟨hexact.1 entrySealing mem_cons_self _ rfl, fun h => ?_⟩
  exact absurd ((hexact.2.1 entrySealing mem_cons_self _ _ _ _).1 h).2.1 (by decide)

end Example

end Paranoid.ObjectRecord
