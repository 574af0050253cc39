import Paranoid.EncryptedCookies
import Paranoid.VaultReopening

namespace Paranoid.StorageBinding

open ByteCodecs CryptoPrimitives EncryptedCookies EnvelopeRotation KeysetDerivation List Postgres SizedParts
  VaultModel
open EnvelopeModel hiding utf8
open TextCodecs (toBase64Url)
open Utf8Text (Text utf8 utf8_inj)
open VaultReopening (decryptValue_eq_ok unlockVaultKeyset_eq_ok)

section Projection

variable (crates : Crates)

/-- The names that a profile requires, in ascending order. -/
structure Profile where
  name : Text
  requiredNames : List EnvVarName
  ascending : (requiredNames.map EnvVarName.text).Pairwise (· < ·)

def missingProfileNames (profile : Profile) (vault : VaultFile) : List EnvVarName :=
  profile.requiredNames.filter fun name => !vault.encryptedEnv.containsKey name.text

def readVaultAndRequireCompleteProfile (file : Option Bytes) (profile : Profile) :
    Except Error VaultFile := do
  let vault ← readVault crates file
  if missingProfileNames profile vault ≠ [] then throw .missingProfileValues
  return vault

/-- The values in the order of their names, each inserted behind those before. -/
def decryptProfileFromUnlockedVault (profile : Profile) (vault : VaultFile) (keyset : Keyset) :
    Except Error (List (EnvVarName × Bytes)) :=
  profile.requiredNames.foldlM (fun projected name => do
    let value ← vault.decryptValue crates keyset name
    return projected ++ [(name, value)]) []

def projectProfileEnv (profiles : Text → Option Profile) (file : Option Bytes)
    (profileName : Text) (password : Bytes) : Except Error (List (EnvVarName × Bytes)) :=
  match profiles profileName with
  | none => .error (.unknownProfile profileName)
  | some profile => do
      let vault ← readVaultAndRequireCompleteProfile crates file profile
      let keyset ← unlockVaultKeyset crates vault password
      decryptProfileFromUnlockedVault crates profile vault keyset

end Projection

section History

variable (crates : Crates)

def vaultPath : PurposePath := .root localEnvVaultKeysetPurpose

/-- A call of `set_encrypted_value` for a name of a vault. -/
structure Stored (s : Sealing crates.kdf crates.xchacha crates.aesGcmSiv) (vault : VaultFile)
    (name : EnvVarName) : Prop where
  path : s.path = vaultPath
  set : ∃ now later changed,
    vault.setEncryptedValue crates s.keyset name s.plaintext (.ok now) later s.fillRandom =
      .ok changed ∧
      s.context = entryAssociatedData vault name ⟨encryptedEntryVersion, now, []⟩

/-- A call that made a vault, with its password check. -/
def Created (s : Sealing crates.kdf crates.xchacha crates.aesGcmSiv) : Prop :=
  ∃ password params now draws vault,
    VaultFile.new crates password params now draws = .ok vault ∧
    s.context = passwordCheckAssociatedData vault ∧ s.plaintext = passwordCheckPlaintext

/-- What was sealed for vaults was sealed by these calls. -/
def VaultCalls (made : List (Sealing crates.kdf crates.xchacha crates.aesGcmSiv)) : Prop :=
  ∀ s ∈ made, s.path = vaultPath → Created crates s ∨ ∃ vault name, Stored crates s vault name

end History

section Vaults

variable {vault other : VaultFile} {name otherName : EnvVarName} {entry otherEntry : EncryptedEnvEntry}

theorem uint32_inj {a b : UInt32} (h : beBytes 4 a.toNat = beBytes 4 b.toNat) : a = b :=
  UInt32.toNat_inj.1 (beBytes_inj a.toNat_lt b.toNat_lt h)

theorem length_entryAssociatedData (vault : VaultFile) (name : EnvVarName) (entry : EncryptedEnvEntry) :
    (utf8 vault.vaultId).length ≤ (entryAssociatedData vault name entry).length ∧
      (utf8 name.text).length ≤ (entryAssociatedData vault name entry).length := by
  simp only [entryAssociatedData, pushAdPart, length_append, length_beBytes]
  omega

/-- The associated data of an entry tells its vault, its name and the versions. -/
theorem entryAssociatedData_inj
    (hbounded : (entryAssociatedData vault name entry).length ≤ maxAssociatedDataSize)
    (h : entryAssociatedData vault name entry = entryAssociatedData other otherName otherEntry) :
    vault.version = other.version ∧ vault.vaultId = other.vaultId ∧
      name = otherName ∧ entry.version = otherEntry.version := by
  have hsmall : maxAssociatedDataSize < 256 ^ 4 := by decide
  have hlengths := length_entryAssociatedData vault name entry
  have hotherLengths := length_entryAssociatedData other otherName otherEntry
  rw [← h] at hotherLengths
  have hparts : beBytes 4 vault.version.toNat ++
    (sized 4 (utf8 vault.vaultId) ++ (sized 4 (utf8 name.text) ++ beBytes 4 entry.version.toNat)) =
      beBytes 4 other.version.toNat ++
        (sized 4 (utf8 other.vaultId) ++
          (sized 4 (utf8 otherName.text) ++ beBytes 4 otherEntry.version.toNat)) := append_cancel_left h
  obtain ⟨hversion, hrest⟩ := append_inj hparts (by rw [length_beBytes, length_beBytes])
  obtain ⟨hid, hrest⟩ := sized_inj (by omega) (by omega) hrest
  obtain ⟨hname, hentry⟩ := sized_inj (by omega) (by omega) hrest
  obtain ⟨text, valid⟩ := name
  obtain ⟨otherText, otherValid⟩ := otherName
  obtain rfl : text = otherText := utf8_inj hname
  exact ⟨uint32_inj hversion, utf8_inj hid, rfl, uint32_inj hentry⟩

/-- A password check is no entry: what it is for stands in front. -/
theorem passwordCheck_ne_entry :
    passwordCheckAssociatedData other ≠ entryAssociatedData vault name entry := by
  intro h
  have hdomains := (@sized_inj 4 _ _ _ _ (by decide +kernel) (by decide +kernel) h).1
  exact absurd hdomains (by decide +kernel)

variable {crates : Crates} {made : List (Sealing crates.kdf crates.xchacha crates.aesGcmSiv)}
  {keyset : Keyset} {key : Key32} {value password : Bytes}

/-- The key that a password becomes with the salt and the parameters of a vault. -/
def passwordKey (crates : Crates) (vault : VaultFile) (password : Bytes) : Except Error Key32 := do
  let salt ← vault.kdf.saltBytes crates
  let params ← vault.kdf.params crates
  (PasswordSealedKey.deriveArgon2idKey32FromPasswordBytes
    crates.argon2 password salt.val params).mapError .password

theorem deriveVaultKeyset_of_passwordKey
    (h : deriveVaultKeyset crates vault password = .ok keyset) :
    ∃ key, passwordKey crates vault password = .ok key ∧ vaultPath.keyset crates.kdf [key] = .ok keyset := by
  obtain ⟨salt, hsalt, h⟩ := bind_eq_ok.1 h
  obtain ⟨params, hparams, h⟩ := bind_eq_ok.1 h
  obtain ⟨key, hkey, h⟩ := bind_eq_ok.1 h
  refine ⟨key, ?_, mapError_eq_ok.1 h⟩
  rw [passwordKey, hsalt, ok_bind, hparams, ok_bind, hkey]

/-- A value that is decrypted was stored under its name, in this vault, with this key. -/
theorem stored_of_decryptValue (hinner : crates.xchacha.Ideal (InnerMade made))
    (houter : crates.aesGcmSiv.Ideal (OuterMade made))
    (hcalls : VaultCalls crates made) (hkdf : NoCollision crates.kdf (inputsInPlay made [key] vaultPath))
    (hkeyset : vaultPath.keyset crates.kdf [key] = .ok keyset)
    (h : vault.decryptValue crates keyset name = .ok value) :
    ∃ s ∈ made, ∃ other, Stored crates s other name ∧
      other.version = vault.version ∧ other.vaultId = vault.vaultId ∧
      s.encryptingKey = key ∧ s.plaintext = value := by
  obtain ⟨entry, encrypted, -, -, hdecrypted⟩ := decryptValue_eq_ok.1 h
  obtain ⟨s, hs, -, hcontext, hplaintext, hpath, hkey⟩ :=
    (decryptBytes_eq_ok_iff hkdf hinner houter hkeyset).1 hdecrypted
  refine ⟨s, hs, ?_⟩
  rcases hcalls s hs hpath with ⟨_, _, _, _, other, -, hcheck, -⟩ | ⟨other, otherName, hstored⟩
  · exact absurd (hcheck.symm.trans hcontext) passwordCheck_ne_entry
  · obtain ⟨now, later, changed, -, hentry⟩ := hstored.set
    have hsame := hentry.symm.trans hcontext
    obtain ⟨hversion, hid, rfl, -⟩ := entryAssociatedData_inj (hentry ▸ s.layers.1) hsame
    exact ⟨other, hstored, hversion, hid, mem_singleton.1 hkey, hplaintext⟩

theorem projected_spec {names : List EnvVarName} {before env : List (EnvVarName × Bytes)}
    (h : names.foldlM (fun projected name => do
      let value ← vault.decryptValue crates keyset name
      return projected ++ [(name, value)]) before = .ok env) :
    ∃ pairs, env = before ++ pairs ∧ pairs.map Prod.fst = names ∧
      ∀ pair ∈ pairs, vault.decryptValue crates keyset pair.1 = .ok pair.2 := by
  induction names generalizing before with
  | nil =>
      cases h
      exact ⟨[], (append_nil _).symm, rfl, fun _ hpair => by cases hpair⟩
  | cons name names ih =>
      rw [foldlM_cons] at h
      obtain ⟨next, hnext, h⟩ := bind_eq_ok.1 h
      obtain ⟨value, hvalue, hsame⟩ := bind_eq_ok.1 hnext
      cases hsame
      obtain ⟨pairs, rfl, hnames, hpairs⟩ := ih h
      exact ⟨(name, value) :: pairs, append_assoc _ _ _,
        congrArg (name :: ·) hnames, forall_mem_cons.2 ⟨hvalue, hpairs⟩⟩

end Vaults

section Binding

variable {α : Type} {crates : Crates} {cookies : CookieModel.Crates} {payloads : Payloads α}
  {made : List (Sealing crates.kdf crates.xchacha crates.aesGcmSiv)}

/-- A minted cookie opens in its own place only; and what a profile is given are its required names, each with a value that was
stored under the name in the same vault with the same key. -/
theorem values_bound_to_their_place (hinner : crates.xchacha.Ideal (InnerMade made))
    (houter : crates.aesGcmSiv.Ideal (OuterMade made))
    (hpayloads : payloads.Faithful) (hcalls : VaultCalls crates made) :
    (∀ m : Minting cookies crates.kdf crates.xchacha crates.aesGcmSiv payloads,
      m.sealing ∈ made → ∀ other keys keyset,
      Accepted cookies other → m.application.keyset crates.kdf keys = .ok keyset →
        m.sealing.encryptingKey ∈ keys →
      NoCollision crates.kdf (inputsInPlay made keys m.sealing.path) →
        ((∃ payload, decodeCookieValue cookies crates.kdf crates.xchacha crates.aesGcmSiv
          payloads other (.ok keyset) m.cookie.value = .ok payload) ↔
          SamePlace m.spec other) ∧
        (SamePlace m.spec other →
          decodeCookieValue cookies crates.kdf crates.xchacha crates.aesGcmSiv payloads other
            (.ok keyset) m.cookie.value = .ok m.payload)) ∧
    ∀ profiles file profileName password env,
      projectProfileEnv crates profiles file profileName password = .ok env →
      (∀ vault key, readVault crates file = .ok vault →
        passwordKey crates vault password = .ok key →
        NoCollision crates.kdf (inputsInPlay made [key] vaultPath)) →
        ∃ profile vault key, profiles profileName = some profile ∧
          readVault crates file = .ok vault ∧
          passwordKey crates vault password = .ok key ∧ env.map Prod.fst = profile.requiredNames ∧
          ∀ pair ∈ env, ∃ s ∈ made, ∃ other, Stored crates s other pair.1 ∧
            other.version = vault.version ∧
            other.vaultId = vault.vaultId ∧ s.encryptingKey = key ∧ s.plaintext = pair.2 := by
  constructor
  · intro m hm other keys keyset hother hkeyset hkey hkdf
    have hopens : ∀ payload, decodeCookieValue cookies crates.kdf crates.xchacha crates.aesGcmSiv
        payloads other (.ok keyset) m.cookie.value = .ok payload ↔
          SamePlace m.spec other ∧ m.sealing.encryptingKey ∈ keys ∧ payload = m.payload :=
      fun payload => decode_minted_eq_ok hinner houter hpayloads m hm hother hkdf hkeyset
    exact ⟨⟨fun ⟨payload, hpayload⟩ => ((hopens payload).1 hpayload).1,
      fun hplace => ⟨_, (hopens _).2 ⟨hplace, hkey, rfl⟩⟩⟩,
      fun hplace => (hopens _).2 ⟨hplace, hkey, rfl⟩⟩
  · intro profiles file profileName password env h hkdf
    unfold projectProfileEnv at h
    cases hprofile : profiles profileName with
    | none =>
        rw [hprofile] at h
        cases h
    | some profile =>
        rw [hprofile] at h
        obtain ⟨vault, hvault, h⟩ := bind_eq_ok.1 h
        obtain ⟨keyset, hkeyset, h⟩ := bind_eq_ok.1 h
        obtain ⟨read, hread, hcomplete⟩ := bind_eq_ok.1 hvault
        have hsame : read = vault := by
          split at hcomplete
          · cases hcomplete
          · exact Except.ok.inj hcomplete
        subst hsame
        obtain ⟨key, hkey, hkeyset⟩ :=
          deriveVaultKeyset_of_passwordKey (unlockVaultKeyset_eq_ok.1 hkeyset).1
        obtain ⟨pairs, rfl, hnames, hpairs⟩ := projected_spec h
        refine ⟨profile, read, key, rfl, hread, hkey, hnames, fun pair hpair => ?_⟩
        exact stored_of_decryptValue hinner houter hcalls
          (hkdf read key hread hkey) hkeyset (hpairs pair hpair)

end Binding

section Theme

open CookieEmission (production theme themeSpec)
open VaultReopening (nameOf)

def cookiePath : PurposePath := .child (.root [0x61, 0x70, 0x70]) encryptedCookieChildPurpose

def cookie : Sealed where
  path := cookiePath
  context := associatedData themeSpec
  plaintext := [1, 2, 3]
  derived := keyset_of_isOk (by decide +kernel)
  padded := tokens_padded
  bounded := by decide +kernel

/-- A vault that has just been made, before its password check is sealed. -/
def emptyVault : VaultFile where
  version := vaultVersion
  vaultId := toBase64Url default (replicate vaultIdRandomBytes 0)
  createdAtUnixSeconds := 0
  updatedAtUnixSeconds := 0
  kdf := ⟨kdfAlgorithmArgon2id, argon2Version0x13, 64 * 1024, 3, 1,
    toBase64Url default (replicate PasswordSealedKey.passwordKdfSaltSize 0)⟩
  passwordCheck := []
  encryptedEnv := .new

theorem vaultPath_derived : vaultPath.keyset digestKdf [retiredKey] =
    .ok ⟨vaultPath.text, [vaultPath.workingKey digestKdf retiredKey]⟩ :=
  keyset_of_isOk (by decide +kernel)

def passwordCheck : Sealed where
  path := vaultPath
  context := passwordCheckAssociatedData emptyVault
  plaintext := passwordCheckPlaintext
  derived := vaultPath_derived
  padded := by decide +kernel
  bounded := by decide +kernel

def storedValue : Sealed where
  path := vaultPath
  context := entryAssociatedData emptyVault (nameOf 0) ⟨encryptedEntryVersion, 0, []⟩
  plaintext := [4, 5, 6]
  derived := vaultPath_derived
  padded := by decide +kernel
  bounded := by decide +kernel

def records : List Sealed := [cookie, passwordCheck, storedValue]

/-- A vault with the stored value as the entry of a name. -/
def vaultWith (name : EnvVarName) : VaultFile :=
  { emptyVault with
    passwordCheck := toBase64Url default passwordCheck.envelope
    encryptedEnv := EncryptedEnv.new.insert name.text
      ⟨encryptedEntryVersion, 0, toBase64Url default storedValue.envelope⟩ }

def fileOf (name : EnvVarName) : Bytes := VaultText.toWriterPretty (vaultWith name) ++ [10]

/-- The crates, as far as the two vaults need them. -/
def storageCrates : Crates where
  argon2 := PasswordSealedKey.oneKeyArgon2
  kdf := digestKdf
  xchacha := recordedCiphers (records.map Sealed.inner)
  aesGcmSiv := recordedCiphers (records.map Sealed.outer)
  texts := default
  toWriterPretty := VaultText.toWriterPretty
  fromSlice bytes := (([nameOf 0, nameOf 1].find? fun name => bytes = fileOf name).map vaultWith)

def made : List (Sealing storageCrates.kdf storageCrates.xchacha storageCrates.aesGcmSiv) :=
  records.map fun s => s.sealing records

theorem made_ideal : storageCrates.xchacha.Ideal (InnerMade made) ∧
    storageCrates.aesGcmSiv.Ideal (OuterMade made) :=
  ⟨recordedCiphers_ideal (by decide +kernel) Sealed.innerMade_sealing,
    recordedCiphers_ideal (by decide +kernel) Sealed.outerMade_sealing⟩

def zeroDraws : VaultDraws where
  vaultId := .ok ⟨replicate vaultIdRandomBytes 0, rfl⟩
  salt := .ok ⟨replicate PasswordSealedKey.passwordKdfSaltSize 0, rfl⟩
  passwordCheck call n := .ok ⟨replicate n (UInt8.ofNat call), length_counted call n⟩

/-- The vault is made with its password check, and the value is stored in it. -/
theorem made_calls : VaultCalls storageCrates made := by
  intro s hs hpath
  rcases mem_cons.1 hs with rfl | hs
  · exact absurd hpath (by decide)
  · rcases mem_cons.1 hs with rfl | hs
    · have hnew : ∃ vault, VaultFile.new storageCrates [112] PasswordSealedKey.interactiveDefault
          (.ok 0) zeroDraws = .ok vault ∧
            decide (passwordCheckAssociatedData vault = passwordCheck.context) = true :=
        VaultReopening.exists_of_any (by decide +kernel)
      obtain ⟨vault, hnew, hcontext⟩ := hnew
      exact .inl ⟨_, _, _, _, vault, hnew, (of_decide_eq_true hcontext).symm, rfl⟩
    · obtain rfl := mem_singleton.1 hs
      have hset : ∃ changed, emptyVault.setEncryptedValue storageCrates
          (storedValue.sealing records).keyset (nameOf 0) storedValue.plaintext (.ok 0) (.ok 0)
            (storedValue.sealing records).fillRandom = .ok changed ∧ true = true :=
        VaultReopening.exists_of_any (by decide +kernel)
      obtain ⟨changed, hset, -⟩ := hset
      exact .inr ⟨emptyVault, nameOf 0, rfl, 0, .ok 0, changed, hset, rfl⟩

theorem cookie_noCollision :
    NoCollision digestKdf (inputsInPlay made [latestKey, retiredKey] cookiePath) :=
  noCollision_of_dedup (by decide +kernel)

theorem vault_noCollision : NoCollision digestKdf (inputsInPlay made [retiredKey] vaultPath) :=
  noCollision_of_dedup (by decide +kernel)

def bytesPayloads : Payloads Bytes := ⟨some, some⟩

def themeMinting : Minting default storageCrates.kdf storageCrates.xchacha storageCrates.aesGcmSiv
    bytesPayloads where
  sealing := cookie.sealing records
  application := .root [0x61, 0x70, 0x70]
  spec := themeSpec
  payload := [1, 2, 3]
  cookie := themeSpec.applyAttributes (toBase64Url default cookie.envelope)
  accepted := ⟨production, .hostOnly, theme, .clientReadable, rfl⟩
  path_eq := rfl
  plaintext_eq := rfl
  context_eq := rfl
  minted := newCookie_eq_ok (encryptedCookieKeyset_eq_ok.2 cookie.derived) rfl
    (cookie.sealing records).sealed (by decide +kernel)

def applicationKeyset : Keyset :=
  ⟨[0x61, 0x70, 0x70], [deriveWorkingKeyFromKey32 digestKdf latestKey [0x61, 0x70, 0x70],
    deriveWorkingKeyFromKey32 digestKdf retiredKey [0x61, 0x70, 0x70]]⟩

def themeAt (path : Text) : CookieModel.CookieSpec :=
  { themeSpec with name := theme.name, path := path, scope := .nonHostOnly }

def profileOf (name : EnvVarName) : Profile := ⟨['a', 'p', 'p'], [name], pairwise_singleton _ _⟩

/-- What a profile that requires a name is given of the vault with the stored value as the entry of the name. -/
def projected (name : EnvVarName) : Except Error (List (EnvVarName × Bytes)) :=
  projectProfileEnv storageCrates (fun _ => some (profileOf name)) (some (fileOf name)) ['a', 'p', 'p'] [112]

/-- Every password becomes the one key. -/
theorem passwordKey_storageCrates {vault : VaultFile} {password : Bytes} {key : Key32}
    (h : passwordKey storageCrates vault password = .ok key) : key = retiredKey := by
  obtain ⟨salt, -, h⟩ := bind_eq_ok.1 h
  obtain ⟨params, -, h⟩ := bind_eq_ok.1 h
  obtain ⟨-, -, h⟩ := bind_eq_ok.1 (mapError_eq_ok.1 h)
  exact (Except.ok.inj h).symm

/-- No value was ever stored under the second name. -/
theorem not_stored {s : Sealing storageCrates.kdf storageCrates.xchacha storageCrates.aesGcmSiv}
    (hs : s ∈ made) {vault : VaultFile} : ¬Stored storageCrates s vault (nameOf 1) := by
  intro hstored
  obtain ⟨now, -, -, -, hcontext⟩ := hstored.set
  have hpath := hstored.path
  rcases mem_cons.1 hs with rfl | hs
  · exact absurd hpath (by decide)
  · rcases mem_cons.1 hs with rfl | hs
    · exact passwordCheck_ne_entry hcontext
    · obtain rfl := mem_singleton.1 hs
      have hname : nameOf 0 = nameOf 1 :=
        (entryAssociatedData_inj storedValue.bounded hcontext).2.2.1
      exact absurd hname (by decide)

/-- The cookie and the value open where they were put, and not elsewhere. -/
theorem values_bound_to_their_place_theme :
    decodeCookieValue default storageCrates.kdf storageCrates.xchacha storageCrates.aesGcmSiv
      bytesPayloads themeSpec (.ok applicationKeyset) themeMinting.cookie.value = .ok [1, 2, 3] ∧
      (¬∃ payload, decodeCookieValue default storageCrates.kdf storageCrates.xchacha
        storageCrates.aesGcmSiv bytesPayloads (themeAt ['/']) (.ok applicationKeyset)
          themeMinting.cookie.value = .ok payload) ∧
        projected (nameOf 0) = .ok [(nameOf 0, [4, 5, 6])] ∧ ¬∃ env, projected (nameOf 1) = .ok env := by
  have hbound := @values_bound_to_their_place _ storageCrates default bytesPayloads made
    made_ideal.1 made_ideal.2 (fun _ _ h => h.symm) made_calls
  have hkeyset : (PurposePath.root [0x61, 0x70, 0x70]).keyset storageCrates.kdf [latestKey, retiredKey] =
      .ok applicationKeyset := keyset_of_isOk (by decide +kernel)
  have hsame := hbound.1 themeMinting mem_cons_self themeSpec _ _
    ⟨production, .hostOnly, theme, .clientReadable, rfl⟩ hkeyset (by decide +kernel) cookie_noCollision
  have hother := hbound.1 themeMinting mem_cons_self (themeAt ['/']) _ _
    ⟨production, .nonHostOnly ['/'] none, theme, .clientReadable, rfl⟩ hkeyset
    (by decide +kernel) cookie_noCollision
  refine ⟨hsame.2 ⟨rfl, rfl, rfl, rfl⟩, fun hopens => ?_, by decide +kernel, ?_⟩
  · exact absurd (hother.1.1 hopens).scope (by decide)
  · rintro ⟨env, henv⟩
    obtain ⟨profile, vault, key, hprofile, hread, hkey, hnames, hpairs⟩ :=
      hbound.2 _ _ _ _ env henv fun vault key hread hkey =>
        passwordKey_storageCrates hkey ▸ vault_noCollision
    obtain rfl : profileOf (nameOf 1) = profile := Option.some.inj hprofile
    obtain ⟨pair, hpair, hname⟩ : ∃ pair ∈ env, pair.1 = nameOf 1 := by
      have hmem : nameOf 1 ∈ env.map Prod.fst := hnames ▸ mem_cons_self
      exact mem_map.1 hmem
    obtain ⟨s, hs, other, hstored, -⟩ := hpairs pair hpair
    exact not_stored hs (hname ▸ hstored)

end Theme

end Paranoid.StorageBinding
