import Paranoid.CookieEmission
import Paranoid.EnvelopeRotation
import Paranoid.SizedParts

namespace Paranoid.EncryptedCookies

open ByteCodecs CookieModel CookieEmission CryptoPrimitives EnvelopeRotation
  KeysetDerivation List SizedParts
open Base64Url (IsSymbol isSymbol_lt valueOf)
open EnvelopeModel (Kdf XChaCha20Poly1305 Aes256GcmSiv Keyset ParsedEnvelope CryptoError
  encryptBytesWithAssociatedData decryptBytesWithAssociatedData maxAssociatedDataSize maxEnvelopeSize
  maxPlaintextSize validateEnvelopeSize)
open MnemonicModel (isWhitespace)
open Postgres (bind_eq_ok mapError_eq_ok ok_bind)
open TextCodecs (decodeBase64url decodeBase64url_toBase64Url isSymbol_of_mem_encodeBase64url
  length_toBase64Url toBase64Url)
open Utf8Text (Text utf8 utf8_inj)

def encryptedCookieChildPurpose : Bytes := EnvelopeModel.utf8 "paranoid.cookies.encrypted.v1"

def cookieAssociatedDataContext : Bytes := EnvelopeModel.utf8 "paranoid/cookie-associated-data/v1"

def associatedDataByte : CookieScopeKind → UInt8
  | .hostOnly => 1
  | .nonHostOnly => 2

def associatedDataParts (spec : CookieSpec) : List Bytes :=
  [cookieAssociatedDataContext, utf8 spec.name, utf8 spec.path,
    utf8 (spec.domain.getD []), [associatedDataByte spec.scope]]

def associatedData (spec : CookieSpec) : Bytes := (associatedDataParts spec).flatMap (sized 8)

/-- The serialization of a type of payloads. -/
structure Payloads (α : Type) where
  serialize : α → Option Bytes
  deserialize : Bytes → Option α

/-- What is documented of it: it gives back what it has written. -/
def Payloads.Faithful {α : Type} (payloads : Payloads α) : Prop :=
  ∀ payload bytes, payloads.serialize payload = some bytes → payloads.deserialize bytes = some payload

section Helpers

variable {α : Type} (crates : Crates) (kdf : Kdf)
  (xchacha : XChaCha20Poly1305) (aesGcmSiv : Aes256GcmSiv)
  (payloads : Payloads α)

/-- The keyset of the application is asked for at each call. -/
def encryptedCookieKeyset (getKeyset : Except Error Keyset) : Except Error Keyset := do
  let keyset ← getKeyset
  (keyset.deriveChildKeyset kdf encryptedCookieChildPurpose).mapError .crypto

def toPlaintextBytes (payload : α) : Except Error Bytes :=
  match payloads.serialize payload with
  | none => .error .payloadSerialize
  | some bytes =>
      if maxPlaintextSize < bytes.length then .error (.crypto (.plaintextTooLarge bytes.length maxPlaintextSize)) else .ok bytes

def fromPlaintextBytes (bytes : Bytes) : Except Error α :=
  match payloads.deserialize bytes with
  | none => .error .payloadDeserialize
  | some payload => .ok payload

def parseAndDecode (value : Text) : Except Error Bytes := do
  let envelope ← (decodeBase64url crates.texts (utf8 value) maxEnvelopeSize).mapError .codec
  (validateEnvelopeSize envelope).mapError .crypto
  let _ ← (ParsedEnvelope.parse envelope).mapError .crypto
  return envelope

def newCookie (spec : CookieSpec) (getKeyset : Except Error Keyset)
    (payload : α) (fillRandom : FillRandom CryptoError) :
    Except Error Cookie := do
  let keyset ← encryptedCookieKeyset kdf getKeyset
  let plaintext ← toPlaintextBytes payloads payload
  let encrypted ← (encryptBytesWithAssociatedData kdf
    xchacha aesGcmSiv keyset plaintext (associatedData spec)
    fillRandom).mapError .crypto
  spec.cookieWithValue crates (toBase64Url crates.texts encrypted)

def decodeCookieValue (spec : CookieSpec) (getKeyset : Except Error Keyset) (value : Text) :
    Except Error α := do
  if value = [] then throw .emptyCookieValue
  let encrypted ← parseAndDecode crates value
  let keyset ← encryptedCookieKeyset kdf getKeyset
  let plaintext ← (decryptBytesWithAssociatedData kdf xchacha
    aesGcmSiv keyset encrypted (associatedData spec)).mapError .crypto
  fromPlaintextBytes payloads plaintext

end Helpers

section Places

variable {spec other : CookieSpec}

/-- The same final name, path, domain and scope. -/
structure SamePlace (spec other : CookieSpec) : Prop where
  name : spec.name = other.name
  path : spec.path = other.path
  domain : spec.domain = other.domain
  scope : spec.scope = other.scope

/-- A specification that a manager has accepted. -/
def Accepted (crates : Crates) (spec : CookieSpec) : Prop :=
  ∃ manager scope config mode, CookieSpec.new crates manager scope config mode = .ok spec

theorem domain_of_getD {crates : Crates} (hspec : Accepted crates spec) (hother : Accepted crates other)
    (h : spec.domain.getD [] = other.domain.getD []) : spec.domain = other.domain := by
  obtain ⟨manager, scope, config, mode, hspec⟩ := hspec
  obtain ⟨others, otherScope, otherConfig, otherMode, hother⟩ := hother
  -- an accepted domain is not empty, so that no domain has a part of its own
  have hne := fun domain hd => ((new_eq_ok hspec).domain domain hd).ne_nil
  have hotherNe := fun domain hd => ((new_eq_ok hother).domain domain hd).ne_nil
  cases hs : spec.domain with
  | none =>
      cases ho : other.domain with
      | none => rfl
      | some domain =>
          rw [hs, ho] at h
          exact absurd h.symm (hotherNe domain ho)
  | some domain =>
      rw [hs] at h
      cases ho : other.domain with
      | none =>
          rw [ho] at h
          exact absurd h (hne domain hs)
      | some _ =>
          rw [ho] at h
          exact congrArg some h

/-- The associated data tells apart the places of cookies. -/
theorem associatedData_inj_iff {crates : Crates}
    (hspec : Accepted crates spec) (hother : Accepted crates other)
    (hbounded : (associatedData spec).length ≤ maxAssociatedDataSize) :
    associatedData spec = associatedData other ↔ SamePlace spec other := by
  constructor
  · intro h
    have hsmall : maxAssociatedDataSize < 256 ^ 8 := by decide
    have hparts : ∀ spec', associatedData spec = associatedData spec' →
        ∀ part ∈ associatedDataParts spec', part.length < 256 ^ 8 := by
      intro spec' hsame part hpart
      have hlength : part.length ≤ (associatedData spec').length := length_le_of_mem_parts hpart
      rw [← hsame] at hlength
      omega
    have hsame : associatedDataParts spec = associatedDataParts other :=
      sized_parts_inj rfl (hparts spec rfl) (hparts other h) h
    simp only [associatedDataParts, cons.injEq, true_and, and_true] at hsame
    obtain ⟨hname, hpath, hdomain, hscope⟩ := hsame
    refine ⟨utf8_inj hname, utf8_inj hpath, domain_of_getD hspec hother (utf8_inj hdomain), ?_⟩
    cases hs : spec.scope <;> cases ho : other.scope <;> simp_all [associatedDataByte]
  · rintro ⟨hname, hpath, hdomain, hscope⟩
    rw [associatedData, associatedData, associatedDataParts,
      associatedDataParts, hname, hpath, hdomain, hscope]

end Places

section Texts

theorem isSymbol_clear_all : ∀ n < 128, (valueOf (.ofNat n)).isSome →
    Char.ofUInt8 (.ofNat n) ≠ ';' ∧ isWhitespace (Char.ofUInt8 (.ofNat n)) = false ∧
      isVisible (Char.ofUInt8 (.ofNat n)) = true := by
  decide +kernel

theorem isSymbol_clear {b : UInt8} (h : IsSymbol b) :
    Char.ofUInt8 b ≠ ';' ∧ isWhitespace (Char.ofUInt8 b) = false ∧
      isVisible (Char.ofUInt8 b) = true := by
  have hall := isSymbol_clear_all b.toNat (isSymbol_lt h)
  rw [UInt8.ofNat_toNat] at hall
  exact hall h

variable (texts : TextCodecs.Crates)

theorem toBase64Url_clear {envelope : Bytes} {c : Char} (h : c ∈ toBase64Url texts envelope) :
    c ≠ ';' ∧ isWhitespace c = false ∧ isVisible c = true := by
  obtain ⟨b, hb, rfl⟩ := mem_map.1 h
  exact isSymbol_clear (isSymbol_of_mem_encodeBase64url texts hb)

theorem goodValue_toBase64Url (envelope : Bytes) :
    CookieNames.GoodValue (toBase64Url texts envelope) :=
  ⟨fun h => (toBase64Url_clear texts h).1 rfl,
    TrimmedText.trimmed_of_forall fun _ hc => (toBase64Url_clear texts hc).2.1⟩

theorem visible_toBase64Url (envelope : Bytes) :
    CookieNames.Visible (toBase64Url texts envelope) :=
  all_eq_true.2 fun _ hc => (toBase64Url_clear texts hc).2.2

theorem toBase64Url_ne_nil {envelope : Bytes} (h : envelope ≠ []) :
    toBase64Url texts envelope ≠ [] := by
  refine ne_nil_of_length_pos ?_
  rw [length_toBase64Url]
  have hpos := length_pos_of_ne_nil h
  omega

end Texts

section Minting

variable {α : Type} {crates : Crates} {kdf : Kdf}
  {xchacha : XChaCha20Poly1305} {aesGcmSiv : Aes256GcmSiv}
  {payloads : Payloads α}

/-- A call of `new_cookie`, with what it sealed. -/
structure Minting (crates : Crates) (kdf : Kdf) (xchacha : XChaCha20Poly1305) (aesGcmSiv : Aes256GcmSiv)
    (payloads : Payloads α) where
  sealing : Sealing kdf xchacha aesGcmSiv
  application : PurposePath
  spec : CookieSpec
  payload : α
  cookie : Cookie
  accepted : Accepted crates spec
  path_eq : sealing.path = .child application encryptedCookieChildPurpose
  plaintext_eq : payloads.serialize payload = some sealing.plaintext
  context_eq : sealing.context = associatedData spec
  minted : newCookie crates kdf xchacha aesGcmSiv payloads spec
    ((application.keyset kdf (sealing.encryptingKey :: sealing.retiredKeys)).mapError .crypto)
    payload sealing.fillRandom =
      .ok cookie

/-- A cookie is made of what the keyset seals, if the browser's text of it can be sent. -/
theorem newCookie_eq_ok {spec : CookieSpec} {getKeyset : Except Error Keyset} {keyset : Keyset} {payload : α}
    {plaintext envelope : Bytes} {fillRandom : FillRandom CryptoError}
    (hkeyset : encryptedCookieKeyset kdf getKeyset = .ok keyset)
    (hplaintext : toPlaintextBytes payloads payload = .ok plaintext)
    (hsealed : encryptBytesWithAssociatedData kdf xchacha aesGcmSiv keyset plaintext
      (associatedData spec) fillRandom = .ok envelope)
    (hsent : crates.fromStr (crates.toText (spec.applyAttributes (toBase64Url crates.texts envelope))) = true) :
    newCookie crates kdf xchacha aesGcmSiv payloads spec getKeyset payload fillRandom =
      .ok (spec.applyAttributes (toBase64Url crates.texts envelope)) := by
  rw [newCookie, hkeyset, ok_bind, hplaintext, ok_bind, mapError_eq_ok.2 hsealed, ok_bind,
    CookieSpec.cookieWithValue, CookieNames.validateCookieValue_eq_ok.2 (goodValue_toBase64Url crates.texts envelope), ok_bind]
  simp only [hsent, if_true]
  rfl

/-- The child keyset of an application is the keyset of a path. -/
theorem encryptedCookieKeyset_eq_ok {application : PurposePath} {keys : List Key32} {keyset : Keyset} :
    encryptedCookieKeyset kdf ((application.keyset kdf keys).mapError .crypto) = .ok keyset ↔
      (PurposePath.child application encryptedCookieChildPurpose).keyset kdf keys = .ok keyset := by
  have hchild : (PurposePath.child application encryptedCookieChildPurpose).keyset kdf keys =
      application.keyset kdf keys >>= fun parent =>
        parent.deriveChildKeyset kdf encryptedCookieChildPurpose := rfl
  rw [hchild, encryptedCookieKeyset]
  cases application.keyset kdf keys with
  | error error => exact ⟨nofun, nofun⟩
  | ok parent => exact mapError_eq_ok

/-- The value of a minted cookie is the envelope that was sealed. -/
theorem Minting.value_eq (m : Minting crates kdf xchacha aesGcmSiv payloads) :
    m.cookie.value = toBase64Url crates.texts m.sealing.envelope := by
  obtain ⟨keyset, hkeyset, hminted⟩ := bind_eq_ok.1 m.minted
  obtain ⟨plaintext, hplaintext, hminted⟩ := bind_eq_ok.1 hminted
  obtain ⟨encrypted, hencrypted, hcookie⟩ := bind_eq_ok.1 hminted
  rw [encryptedCookieKeyset_eq_ok, ← m.path_eq, m.sealing.derived, Except.ok.injEq] at hkeyset
  have hbytes : plaintext = m.sealing.plaintext := by
    rw [toPlaintextBytes, m.plaintext_eq] at hplaintext
    dsimp only at hplaintext
    split at hplaintext
    · cases hplaintext
    · exact (Except.ok.inj hplaintext).symm
  rw [mapError_eq_ok, ← hkeyset, hbytes, ← m.context_eq,
    m.sealing.sealed, Except.ok.injEq] at hencrypted
  rw [(cookieWithValue_eq_ok hcookie).1, ← hencrypted]
  rfl

variable {made : List (Sealing kdf xchacha aesGcmSiv)} {s : Sealing kdf xchacha aesGcmSiv}

theorem parseAndDecode_envelope (hinner : xchacha.Ideal (InnerMade made))
    (houter : aesGcmSiv.Ideal (OuterMade made))
    (s : Sealing kdf xchacha aesGcmSiv) :
    s.envelope ≠ [] ∧ parseAndDecode crates (toBase64Url crates.texts s.envelope) = .ok s.envelope := by
  obtain ⟨hsize, ciphertext, -, hparsed⟩ := s.parse_envelope hinner houter
  have hbounds : s.envelope.length ≠ 0 ∧ s.envelope.length ≤ maxEnvelopeSize := by
    by_cases hempty : s.envelope.length = 0
    · rw [validateEnvelopeSize, if_pos hempty] at hsize
      cases hsize
    · by_cases hlong : maxEnvelopeSize < s.envelope.length
      · rw [validateEnvelopeSize, if_neg hempty, if_pos hlong] at hsize
        cases hsize
      · exact ⟨hempty, Nat.not_lt.1 hlong⟩
  refine ⟨fun hempty => hbounds.1 (hempty ▸ rfl), ?_⟩
  rw [parseAndDecode, decodeBase64url_toBase64Url crates.texts hbounds.2 (by decide)]
  change ((validateEnvelopeSize s.envelope).mapError Error.crypto >>= fun _ => _) = _
  rw [hsize]
  change ((ParsedEnvelope.parse s.envelope).mapError Error.crypto >>= fun _ => _) = _
  rw [hparsed]
  rfl

/-- Keysets of an application have the child keyset alike. -/
theorem childKeyset_ok {application : PurposePath} {purpose : Bytes}
    {keys others : List Key32} {keyset other : Keyset}
    (hchild : (PurposePath.child application purpose).keyset kdf keys = .ok keyset)
    (happlication : application.keyset kdf others = .ok other) :
    ∃ child, (PurposePath.child application purpose).keyset kdf others = .ok child := by
  obtain ⟨parent, hparent, hderived⟩ := bind_eq_ok.1 hchild
  obtain ⟨childPurpose, hpurpose, -⟩ := bind_eq_ok.1 hderived
  rw [(keyset_eq_ok hparent).2] at hpurpose
  have hother := (keyset_eq_ok happlication).2
  refine ⟨⟨childPurpose, other.latestFirstKeys.map fun key =>
    EnvelopeModel.deriveChildKey kdf key other.purpose purpose⟩, ?_⟩
  have hsame : EnvelopeModel.purposeForChild other.purpose purpose = .ok childPurpose := by
    rw [hother]; exact hpurpose
  change (application.keyset kdf others >>= fun parent => parent.deriveChildKeyset kdf purpose) = _
  rw [happlication, ok_bind, EnvelopeModel.Keyset.deriveChildKeyset, hsame]
  rfl

/-- The value of a minted cookie is opened by decrypting the envelope. -/
theorem decode_minted (hinner : xchacha.Ideal (InnerMade made))
    (houter : aesGcmSiv.Ideal (OuterMade made))
    (m : Minting crates kdf xchacha aesGcmSiv payloads) {keys : List Key32} {keyset : Keyset}
    (hkeyset : m.application.keyset kdf keys = .ok keyset) (other : CookieSpec) :
    ∃ child, m.sealing.path.keyset kdf keys = .ok child ∧
      decodeCookieValue crates kdf xchacha aesGcmSiv payloads other (.ok keyset) m.cookie.value =
        (decryptBytesWithAssociatedData kdf xchacha aesGcmSiv child
          m.sealing.envelope (associatedData other)).mapError .crypto >>=
          fromPlaintextBytes payloads := by
  obtain ⟨hne, hparse⟩ := parseAndDecode_envelope hinner houter m.sealing
  have hderived := m.sealing.derived
  rw [m.path_eq] at hderived
  obtain ⟨child, hchild⟩ := childKeyset_ok hderived hkeyset
  have hcookieKeyset : encryptedCookieKeyset kdf (.ok keyset) = .ok child := by
    rw [← encryptedCookieKeyset_eq_ok, hkeyset] at hchild
    exact hchild
  rw [← m.path_eq] at hchild
  refine ⟨child, hchild, ?_⟩
  rw [decodeCookieValue, m.value_eq, if_neg (toBase64Url_ne_nil crates.texts hne), hparse, hcookieKeyset]
  rfl

/-- A cookie that was minted is opened by the helpers of its place, where its key is still in the keyset, and by no other. -/
theorem decode_minted_eq_ok (hinner : xchacha.Ideal (InnerMade made))
    (houter : aesGcmSiv.Ideal (OuterMade made))
    (hpayloads : payloads.Faithful)
    (m : Minting crates kdf xchacha aesGcmSiv payloads) (hm : m.sealing ∈ made)
    {other : CookieSpec} {keys : List Key32} {keyset : Keyset} (hother : Accepted crates other)
    (hkdf : NoCollision kdf (inputsInPlay made keys m.sealing.path))
    (hkeyset : m.application.keyset kdf keys = .ok keyset)
    {payload : α} :
    decodeCookieValue crates kdf xchacha aesGcmSiv payloads other (.ok keyset) m.cookie.value = .ok payload ↔
      SamePlace m.spec other ∧ m.sealing.encryptingKey ∈ keys ∧ payload = m.payload := by
  obtain ⟨child, hchild, hsteps⟩ := decode_minted hinner houter m hkeyset other
  have hplaces := associatedData_inj_iff m.accepted hother (m.context_eq ▸ m.sealing.layers.1)
  have hread : fromPlaintextBytes payloads m.sealing.plaintext = .ok m.payload := by
    rw [fromPlaintextBytes, hpayloads _ _ m.plaintext_eq]
  rw [hsteps]
  constructor
  · intro hpayload
    obtain ⟨plaintext, hplaintext, hpayload⟩ := bind_eq_ok.1 hpayload
    obtain ⟨t, ht, henvelope, hcontext, -, -, hkey⟩ :=
      (decryptBytes_eq_ok_iff hkdf hinner houter hchild).1 (mapError_eq_ok.1 hplaintext)
    obtain ⟨hcontexts, -, hkeys⟩ := sealing_unique hkdf houter ht hm henvelope
    have hplace := hplaces.1 (m.context_eq.symm.trans (hcontexts.symm.trans hcontext))
    rw [hkeys] at hkey
    refine ⟨hplace, hkey, ?_⟩
    have hopens := (decryptBytes_eq_ok_iff hkdf hinner houter hchild).2
      ⟨m.sealing, hm, rfl, m.context_eq.trans (hplaces.2 hplace), rfl, rfl, hkey⟩
    rw [mapError_eq_ok, hopens, Except.ok.injEq] at hplaintext
    rw [← hplaintext, hread, Except.ok.injEq] at hpayload
    exact hpayload.symm
  · rintro ⟨hplace, hkey, rfl⟩
    have hopens := (decryptBytes_eq_ok_iff hkdf hinner houter hchild).2
      ⟨m.sealing, hm, rfl, m.context_eq.trans (hplaces.2 hplace), rfl, rfl, hkey⟩
    rw [hopens]
    exact hread

end Minting

end Paranoid.EncryptedCookies
