import Mathlib.Logic.Function.Basic
import Paranoid.EnvelopeSealing
import Paranoid.Transitions
import Paranoid.VaultText

namespace Paranoid.VaultReopening

open ByteCodecs CryptoPrimitives EnvelopeRotation EnvelopeSealing Postgres Transitions VaultModel
open EnvelopeModel hiding utf8
open TextCodecs (decodeBase64url_toBase64Url length_toBase64Url toBase64Url)
open Utf8Text (Text utf8)

structure Session where
  vault : VaultFile
  keyset : Keyset

/-- The file of a vault and the session that configures it, with what has been done so
far: the password of the creation, what was last written, and what was last set. -/
structure State where
  file : Option Bytes
  session : Option Session
  password : Bytes
  written : Option VaultFile
  values : Text → Option Bytes

/-- How an atomic write ends. An error may come after the file has been replaced. -/
inductive WriteEnd
  | done
  | refused
  | replaced

inductive Event
  | creates (password : Bytes) (now : Except Error UInt64) (draws : VaultDraws) (writeEnd : WriteEnd)
  | opens
  | sets (name : EnvVarName) (value : Bytes) (now later : Except Error UInt64) (fillRandom : FillRandom CryptoError)
      (writeEnd : WriteEnd)
  | removes (requiredVaultValueNames : List EnvVarName) (now : Except Error UInt64) (writeEnd : WriteEnd)
  | closes

def start : State := ⟨none, none, [], none, fun _ => none⟩

section Steps

variable (crates : Crates)

def unlock (vault : VaultFile) (password : Bytes) : Except Error Keyset :=
  unlockVaultKeyset crates vault password

def read (s : State) : Except Error VaultFile := readVault crates s.file

/-- An error of the write ends the session. -/
def State.writeVaultAtomically (s : State) (vault : VaultFile)
    (values : Text → Option Bytes) (session : Option Session) :
    WriteEnd → State
  | .refused => { s with session := none }
  | .done => { s with file := some (fileBytes crates vault), written := some vault, values, session }
  | .replaced => { s with
      file := some (fileBytes crates vault), written := some vault, values, session := none }

/-- A session that finds no vault makes one, and unlocks it. -/
def configureNew (s : State) (password : Bytes) (now : Except Error UInt64)
    (draws : VaultDraws) (writeEnd : WriteEnd) : State :=
  match VaultFile.new crates password PasswordSealedKey.interactiveDefault now draws with
  | .error _ => s
  | .ok vault =>
      { s with password }.writeVaultAtomically crates vault (fun _ => none)
        ((unlock crates vault password).toOption.map fun keyset => ⟨vault, keyset⟩) writeEnd

/-- A session that finds a vault reads and unlocks it. -/
def configureExisting (s : State) : State :=
  match read crates s with
  | .error _ => s
  | .ok vault => { s with
      session := (unlock crates vault s.password).toOption.map fun keyset => ⟨vault, keyset⟩ }

def writeOneValue (s : State) (session : Session) (name : EnvVarName)
    (value : Bytes) (now later : Except Error UInt64)
    (fillRandom : FillRandom CryptoError) (writeEnd : WriteEnd) : State :=
  match session.vault.setEncryptedValue crates session.keyset name value now later fillRandom with
  | .error _ => { s with session := none }
  | .ok vault =>
      s.writeVaultAtomically crates vault (Function.update s.values name.text (some value))
        (some { session with vault }) writeEnd

def valuesRequired (requiredVaultValueNames : List EnvVarName)
    (values : Text → Option Bytes) (name : Text) : Option Bytes :=
  if (requiredVaultValueNames.map (·.text)).contains name then values name else none

/-- Where every value is required there is nothing to confirm. -/
def confirmAndRemoveValuesNotRequiredByProfiles (s : State)
    (session : Session) (requiredVaultValueNames : List EnvVarName)
    (now : Except Error UInt64) (writeEnd : WriteEnd) : State :=
  if session.vault.encryptedEnv.entries.all fun entry => (requiredVaultValueNames.map (·.text)).contains entry.1 then s
  else match removeVaultEntriesNotRequiredByProfiles session.vault requiredVaultValueNames now with
    | .error _ => { s with session := none }
    | .ok vault =>
        s.writeVaultAtomically crates vault (valuesRequired requiredVaultValueNames s.values)
          (some { session with vault }) writeEnd

/-- Sessions one after another. Each unlocks with the password that the vault was created
with. -/
def step (event : Event) (s : State) : State × Unit :=
  match event, s.session with
  | .creates password now draws writeEnd, none =>
      match s.file with
      | none => (configureNew crates s password now draws writeEnd, ())
      | some _ => (s, ())
  | .opens, none => (configureExisting crates s, ())
  | .sets name value now later fillRandom writeEnd, some session =>
      (writeOneValue crates s session name value now later fillRandom writeEnd, ())
  | .removes requiredVaultValueNames now writeEnd, some session =>
      (confirmAndRemoveValuesNotRequiredByProfiles crates s session requiredVaultValueNames now writeEnd, ())
  | .closes, some _ => ({ s with session := none }, ())
  | _, _ => (s, ())

end Steps

section Entries

variable {entries : List (Text × EncryptedEnvEntry)} {name other : Text} {entry : EncryptedEnvEntry}

theorem lookup_insertEntry : (insertEntry name entry entries).lookup other =
    if other = name then some entry else entries.lookup other := by
  induction entries with
  | nil =>
      by_cases h : other = name
      · simp [insertEntry, h]
      · simp [insertEntry, List.lookup_cons, h, beq_false_of_ne h]
  | cons stored rest ih =>
      obtain ⟨key, value⟩ := stored
      rw [insertEntry]
      by_cases hname : name = key
      · subst hname
        rw [if_pos rfl]
        by_cases h : other = name
        · simp [h]
        · simp [List.lookup_cons, h, beq_false_of_ne h]
      · rw [if_neg hname]
        by_cases hless : name < key
        · rw [if_pos hless]
          by_cases h : other = name
          · simp [h]
          · simp [List.lookup_cons, h, beq_false_of_ne h]
        · rw [if_neg hless]
          by_cases hkey : other = key
          · subst hkey
            simp [Ne.symm hname]
          · simp only [List.lookup_cons, beq_false_of_ne hkey]
            exact ih

theorem lookup_filter_name (p : Text → Bool) :
    (entries.filter fun pair => p pair.1).lookup other =
      if p other then entries.lookup other else none := by
  induction entries with
  | nil => simp
  | cons stored rest ih =>
      obtain ⟨key, value⟩ := stored
      by_cases hkey : other = key
      · subst hkey
        by_cases hp : p other = true
        · simp [hp]
        · simp [hp, ih]
      · by_cases hp : p key = true
        · simp [hp, List.lookup_cons, beq_false_of_ne hkey, ih]
        · simp [hp, List.lookup_cons, beq_false_of_ne hkey, ih]

theorem get_insert {env : EncryptedEnv} :
    (env.insert name entry).get other = if other = name then some entry else env.get other :=
  lookup_insertEntry

theorem get_retain {env : EncryptedEnv} (keep : Text → Bool) :
    (env.retain keep).get other = if keep other then env.get other else none :=
  lookup_filter_name keep

theorem validateEntries_eq_ok {crates : Crates} :
    validateEntries crates entries = .ok () ↔
      ∀ pair ∈ entries, validateEntry crates pair = .ok () := by
  induction entries with
  | nil => simp [validateEntries]
  | cons pair rest ih =>
      rw [validateEntries, List.forall_mem_cons, ← ih]
      cases hpair : validateEntry crates pair with
      | error source => simp [bind, Except.bind]
      | ok value => simp

end Entries

/-- A vault that can be opened with a password, with these values in it. -/
structure Sound (crates : Crates) (password : Bytes)
    (values : Text → Option Bytes) (vault : VaultFile) (keyset : Keyset) :
    Prop where
  valid : validateVault crates vault = .ok ()
  unlocks : unlock crates vault password = .ok keyset
  kept : ∀ (name : EnvVarName) value, values name.text = some value →
    vault.decryptValue crates keyset name = .ok value
  absent : ∀ text, values text = none → vault.encryptedEnv.get text = none

section Sealed

variable {crates : Crates} {keyset : Keyset}
  {plaintext context envelope : Bytes} {fillRandom : FillRandom CryptoError}

theorem mapError_ok {ε δ α : Type} (f : ε → δ) (a : α) :
    (Except.ok a : Except ε α).mapError f = .ok a := rfl

theorem decodeEncrypted_toBase64Url (hcrates : crates.Faithful)
    (h : encryptBytesWithAssociatedData crates.kdf crates.xchacha
      crates.aesGcmSiv keyset plaintext context fillRandom =
      .ok envelope) : decodeEncrypted crates (toBase64Url crates.texts envelope) = .ok envelope := by
  obtain ⟨hlength, hsize, parsed, hparse⟩ := parse_encrypt hcrates.xchacha hcrates.aesGcmSiv h
  rw [decodeEncrypted, decodeBase64url_toBase64Url crates.texts hlength (by decide), mapError_ok, ok_bind, hsize, mapError_ok, ok_bind, hparse]
  rfl

end Sealed

section Created

variable {crates : Crates} {password : Bytes}
  {now : Except Error UInt64} {draws : VaultDraws} {vault : VaultFile}

theorem deriveVaultKeyset_eq_ok {keyset : Keyset}
    (h : deriveVaultKeyset crates vault password = .ok keyset) :
    (∃ salt, vault.kdf.saltBytes crates = .ok salt) ∧
      ∃ params, vault.kdf.params crates = .ok params := by
  obtain ⟨salt, hsalt, h⟩ := bind_eq_ok.1 h
  obtain ⟨params, hparams, -⟩ := bind_eq_ok.1 h
  exact ⟨⟨salt, hsalt⟩, params, hparams⟩

theorem unlockVaultKeyset_eq_ok {keyset : Keyset} :
    unlockVaultKeyset crates vault password = .ok keyset ↔
      deriveVaultKeyset crates vault password = .ok keyset ∧ ∃ encrypted,
        decodeEncrypted crates vault.passwordCheck = .ok encrypted ∧
          decryptBytesWithAssociatedData crates.kdf crates.xchacha crates.aesGcmSiv
            keyset encrypted (passwordCheckAssociatedData vault) =
            .ok passwordCheckPlaintext := by
  constructor
  · intro h
    obtain ⟨derived, hderived, h⟩ := bind_eq_ok.1 h
    obtain ⟨encrypted, hencrypted, h⟩ := bind_eq_ok.1 h
    cases hdecrypted : decryptBytesWithAssociatedData crates.kdf crates.xchacha crates.aesGcmSiv
        derived encrypted (passwordCheckAssociatedData vault) with
    | error source =>
        rw [hdecrypted] at h
        cases h
    | ok decrypted =>
        rw [hdecrypted] at h
        dsimp only at h
        by_cases hplaintext : decrypted = passwordCheckPlaintext
        · rw [if_neg (not_not.2 hplaintext)] at h
          cases h
          exact ⟨hderived, encrypted, hencrypted, hplaintext ▸ hdecrypted⟩
        · rw [if_pos hplaintext] at h
          cases h
  · rintro ⟨hderived, encrypted, hencrypted, hdecrypted⟩
    rw [unlockVaultKeyset, hderived, ok_bind, hencrypted, ok_bind, hdecrypted]
    dsimp only
    rw [if_neg (not_not.2 rfl)]
    rfl

/-- A vault that has been made can be opened, and is empty. -/
theorem sound_new (hcrates : crates.Faithful)
    (h : VaultFile.new crates password PasswordSealedKey.interactiveDefault now draws = .ok vault) :
    ∃ keyset, Sound crates password (fun _ => none) vault keyset := by
  obtain ⟨now, -, h⟩ := bind_eq_ok.1 h
  obtain ⟨vaultId, -, h⟩ := bind_eq_ok.1 h
  obtain ⟨storedKdf, -, h⟩ := bind_eq_ok.1 h
  obtain ⟨keyset, hkeyset, h⟩ := bind_eq_ok.1 h
  obtain ⟨encrypted, hencrypted, h⟩ := bind_eq_ok.1 h
  have hencrypted := mapError_eq_ok.1 hencrypted
  have hdecoded := decodeEncrypted_toBase64Url hcrates hencrypted
  have hopened := decrypt_encrypt hcrates.xchacha hcrates.aesGcmSiv hencrypted
  obtain rfl := (Except.ok.inj h).symm
  refine ⟨keyset, ?_, ?_, ?_, ?_⟩
  · obtain ⟨⟨salt, hsalt⟩, params, hparams⟩ := deriveVaultKeyset_eq_ok hkeyset
    have hid : validateVaultId crates (toBase64Url crates.texts vaultId.val) = .ok () := by
      have hlength : vaultId.val.length ≤ maxByteContainerSize := by
        rw [vaultId.property]
        decide
      rw [validateVaultId, decodeBase64url_toBase64Url crates.texts hlength (by decide)]
      change (if vaultId.val.length ≠ vaultIdRandomBytes then _ else _) = _
      rw [if_neg (not_not.2 vaultId.property)]
      rfl
    rw [validateVault, if_neg (not_not.2 rfl), hid, ok_bind, hparams, ok_bind, hsalt, ok_bind,
      validateEncryptedSecretEnvelope, hdecoded]
    rfl
  · exact unlockVaultKeyset_eq_ok.2 ⟨hkeyset, encrypted, hdecoded, hopened⟩
  · intro name value hvalue
    cases hvalue
  · exact fun text _ => rfl

end Created

section Kept

variable {crates : Crates} {password : Bytes} {values : Text → Option Bytes}
  {vault changed : VaultFile} {keyset : Keyset}
  {requiredVaultValueNames : List EnvVarName}

theorem validateVault_eq_ok : validateVault crates vault = .ok () ↔
    vault.version = vaultVersion ∧ validateVaultId crates vault.vaultId = .ok () ∧
      (∃ params, vault.kdf.params crates = .ok params) ∧
      (∃ salt, vault.kdf.saltBytes crates = .ok salt) ∧
        (∃ envelope, decodeEncrypted crates vault.passwordCheck = .ok envelope) ∧
        ∀ pair ∈ vault.encryptedEnv.entries, validateEntry crates pair = .ok () := by
  constructor
  · intro h
    by_cases hversion : vault.version = vaultVersion
    · rw [validateVault, if_neg (not_not.2 hversion)] at h
      obtain ⟨⟨⟩, hid, h⟩ := bind_eq_ok.1 h
      obtain ⟨params, hparams, h⟩ := bind_eq_ok.1 h
      obtain ⟨salt, hsalt, h⟩ := bind_eq_ok.1 h
      obtain ⟨⟨⟩, hcheck, h⟩ := bind_eq_ok.1 h
      obtain ⟨envelope, henvelope, -⟩ := bind_eq_ok.1 hcheck
      exact ⟨hversion, hid, ⟨params, hparams⟩, ⟨salt, hsalt⟩,
        ⟨envelope, henvelope⟩, validateEntries_eq_ok.1 h⟩
    · rw [validateVault, if_pos hversion] at h
      cases h
  · rintro ⟨hversion, hid, ⟨params, hparams⟩, ⟨salt, hsalt⟩, ⟨envelope, henvelope⟩, hentries⟩
    rw [validateVault, if_neg (not_not.2 hversion), hid, ok_bind, hparams, ok_bind, hsalt, ok_bind,
      validateEncryptedSecretEnvelope, henvelope, ok_bind]
    exact validateEntries_eq_ok.2 hentries

theorem decryptValue_eq_ok {name : EnvVarName} {value : Bytes} :
    vault.decryptValue crates keyset name = .ok value ↔
      ∃ entry encrypted, vault.encryptedEnv.get name.text = some entry ∧
        decodeEncrypted crates entry.ciphertext = .ok encrypted ∧
          decryptBytesWithAssociatedData crates.kdf crates.xchacha crates.aesGcmSiv
            keyset encrypted (entryAssociatedData vault name entry) =
            .ok value := by
  constructor
  · intro h
    cases hlookup : vault.encryptedEnv.get name.text with
    | none =>
        rw [VaultFile.decryptValue, hlookup] at h
        cases h
    | some entry =>
        rw [VaultFile.decryptValue, hlookup] at h
        obtain ⟨encrypted, hencrypted, h⟩ := bind_eq_ok.1 h
        exact ⟨entry, encrypted, rfl, hencrypted, mapError_eq_ok.1 h⟩
  · rintro ⟨entry, encrypted, hlookup, hencrypted, h⟩
    rw [VaultFile.decryptValue, hlookup]
    dsimp only
    rw [hencrypted, ok_bind, h]
    rfl

/-- A value that is set is the one that is read afterwards, and the others stay. -/
theorem Sound.sets {name : EnvVarName} {value : Bytes}
    {now later : Except Error UInt64} {fillRandom : FillRandom CryptoError}
    (hcrates : crates.Faithful) (h : Sound crates password values vault keyset)
    (hset : vault.setEncryptedValue crates keyset name value now later fillRandom =
      .ok changed) : Sound crates password
        (Function.update values name.text (some value)) changed keyset := by
  obtain ⟨now, -, hset⟩ := bind_eq_ok.1 hset
  obtain ⟨encrypted, hencrypted, hset⟩ := bind_eq_ok.1 hset
  obtain ⟨later, -, hset⟩ := bind_eq_ok.1 hset
  have hencrypted := mapError_eq_ok.1 hencrypted
  have hdecoded := decodeEncrypted_toBase64Url hcrates hencrypted
  have hopened := decrypt_encrypt hcrates.xchacha hcrates.aesGcmSiv hencrypted
  obtain rfl := (Except.ok.inj hset).symm
  refine ⟨?_, h.unlocks, ?_, ?_⟩
  · obtain ⟨hversion, hid, hparams, hsalt, hcheck, hentries⟩ := validateVault_eq_ok.1 h.valid
    refine validateVault_eq_ok.2 ⟨hversion, hid, hparams, hsalt, hcheck, fun pair hpair => ?_⟩
    rcases mem_insertEntry hpair with rfl | hpair
    · rw [validateEntry, EnvVarName.new, dif_pos name.valid, ok_bind, if_neg (not_not.2 rfl),
        validateEncryptedSecretEnvelope, hdecoded]
      rfl
    · exact hentries pair hpair
  · intro other kept hkept
    by_cases hname : other.text = name.text
    · rw [hname, Function.update_self] at hkept
      obtain rfl := Option.some.inj hkept
      obtain rfl : other = name := by
        cases other
        cases name
        cases hname
        rfl
      exact decryptValue_eq_ok.2
        ⟨_, encrypted, get_insert.trans (if_pos rfl), hdecoded, hopened⟩
    · rw [Function.update_of_ne hname] at hkept
      obtain ⟨entry, stored, hlookup, hstored⟩ := decryptValue_eq_ok.1 (h.kept other kept hkept)
      exact decryptValue_eq_ok.2
        ⟨entry, stored, by rw [get_insert, if_neg hname, hlookup], hstored⟩
  · intro text htext
    by_cases hname : text = name.text
    · rw [hname, Function.update_self] at htext
      cases htext
    · rw [Function.update_of_ne hname] at htext
      rw [get_insert, if_neg hname, h.absent text htext]

theorem Sound.removes {now : Except Error UInt64} (h : Sound crates password values vault keyset)
    (hremove : removeVaultEntriesNotRequiredByProfiles vault requiredVaultValueNames now =
      .ok changed) :
    Sound crates password (valuesRequired requiredVaultValueNames values) changed keyset := by
  obtain ⟨updated, rfl⟩ : ∃ updated, changed = { vault with
      encryptedEnv := vault.encryptedEnv.retain fun name =>
        (requiredVaultValueNames.map (·.text)).contains name
      updatedAtUnixSeconds := updated } := by
    unfold removeVaultEntriesNotRequiredByProfiles at hremove
    dsimp only at hremove
    split at hremove
    · obtain ⟨now, -, hremove⟩ := bind_eq_ok.1 hremove
      exact ⟨now, (Except.ok.inj hremove).symm⟩
    · exact ⟨vault.updatedAtUnixSeconds, (Except.ok.inj hremove).symm⟩
  refine ⟨?_, h.unlocks, ?_, ?_⟩
  · obtain ⟨hversion, hid, hparams, hsalt, hcheck, hentries⟩ := validateVault_eq_ok.1 h.valid
    exact validateVault_eq_ok.2 ⟨hversion, hid, hparams, hsalt, hcheck, fun pair hpair =>
      hentries pair (List.mem_of_mem_filter hpair)⟩
  · intro name value hvalue
    unfold valuesRequired at hvalue
    split at hvalue
    · rename_i hrequired
      obtain ⟨entry, stored, hlookup, hstored⟩ := decryptValue_eq_ok.1 (h.kept name value hvalue)
      refine decryptValue_eq_ok.2 ⟨entry, stored, ?_, hstored⟩
      exact (get_retain _).trans (by rw [if_pos hrequired, hlookup])
    · cases hvalue
  · intro text htext
    refine (get_retain _).trans ?_
    unfold valuesRequired at htext
    split at htext
    · rename_i hrequired
      rw [if_pos hrequired, h.absent text htext]
    · rename_i hrequired
      rw [if_neg hrequired]

end Kept

/-- What is in the file can be opened once it is read, and a session has it in memory. -/
structure Inv (crates : Crates) (s : State) : Prop where
  file : ∀ bytes, s.file = some bytes → ∃ vault, s.written = some vault
  stored : ∀ vault, s.written = some vault → s.file = some (fileBytes crates vault) ∧
    ∃ keyset, Sound crates s.password s.values vault keyset
  session : ∀ session, s.session = some session → s.written = some session.vault ∧
    Sound crates s.password s.values session.vault session.keyset

section Runs

variable {crates : Crates} {s : State} {vault : VaultFile} {keyset : Keyset}

theorem inv_start (crates : Crates) : Inv crates start := by
  constructor <;> simp [start]

theorem readVault_fileBytes (hcrates : crates.Faithful)
    (hvalid : validateVault crates vault = .ok ()) :
    readVault crates (some (fileBytes crates vault)) =
      if maxVaultFileBytes < (fileBytes crates vault).length then
      .error (.vaultFileTooLarge (fileBytes crates vault).length maxVaultFileBytes) else .ok vault := by
  simp only [readVault, rejectOversizedVaultFile]
  split
  · rfl
  · rw [ok_bind, hcrates.fromSlice]
    dsimp only
    rw [hvalid]
    rfl

theorem fileBytes_inj {other : VaultFile} (hcrates : crates.Faithful)
    (h : fileBytes crates vault = fileBytes crates other) : vault = other := by
  have hread := hcrates.fromSlice other
  rw [← h, hcrates.fromSlice] at hread
  exact Option.some.inj hread

theorem read_eq (hcrates : crates.Faithful) (h : Inv crates s) (hwritten : s.written = some vault) :
    read crates s = if maxVaultFileBytes < (fileBytes crates vault).length then
      .error (.vaultFileTooLarge (fileBytes crates vault).length maxVaultFileBytes) else .ok vault := by
  obtain ⟨hfile, keyset, hsound⟩ := h.stored vault hwritten
  rw [read, hfile]
  exact readVault_fileBytes hcrates hsound.valid

theorem Inv.close (h : Inv crates s) : Inv crates { s with session := none } :=
  ⟨h.file, h.stored, nofun⟩

theorem Inv.write {values : Text → Option Bytes} {session : Option Session} (h : Inv crates s)
    (hsound : Sound crates s.password values vault keyset)
    (hsession : ∀ opened, session = some opened → opened.vault = vault ∧ opened.keyset = keyset)
    (writeEnd : WriteEnd) :
    Inv crates (s.writeVaultAtomically crates vault values session writeEnd) := by
  have hstored : ∀ other, some vault = some other → some (fileBytes crates vault) = some (fileBytes crates other) ∧
      ∃ keyset, Sound crates s.password values other keyset := by
    rintro other ⟨⟩
    exact ⟨rfl, keyset, hsound⟩
  cases writeEnd with
  | done =>
      refine ⟨fun _ _ => ⟨vault, rfl⟩, hstored, fun opened hopened => ?_⟩
      obtain ⟨rfl, rfl⟩ := hsession opened hopened
      exact ⟨rfl, hsound⟩
  | refused => exact h.close
  | replaced => exact ⟨fun _ _ => ⟨vault, rfl⟩, hstored, nofun⟩

theorem Inv.configureNew {password : Bytes} {now : Except Error UInt64}
    {draws : VaultDraws} {writeEnd : WriteEnd}
    (hcrates : crates.Faithful) (h : Inv crates s) (hnone : s.file = none) :
    Inv crates (configureNew crates s password now draws writeEnd) := by
  unfold VaultReopening.configureNew
  split
  · exact h
  · rename_i vault hnew
    obtain ⟨keyset, hsound⟩ := sound_new hcrates hnew
    have hunwritten : ∀ other, s.written ≠ some other := by
      intro other hwritten
      exact absurd (hnone.symm.trans (h.stored other hwritten).1) nofun
    have hfresh : Inv crates { s with password } := by
      refine ⟨h.file, fun other hwritten => absurd hwritten (hunwritten other),
        fun opened hopened => ?_⟩
      exact absurd (h.session opened hopened).1 (hunwritten _)
    refine hfresh.write hsound ?_ writeEnd
    intro opened hopened
    rw [hsound.unlocks] at hopened
    cases hopened
    exact ⟨rfl, rfl⟩

theorem Inv.configureExisting (hcrates : crates.Faithful) (h : Inv crates s) :
    Inv crates (configureExisting crates s) := by
  unfold VaultReopening.configureExisting
  split
  · exact h
  · rename_i vault hread
    obtain ⟨bytes, hfile⟩ : ∃ bytes, s.file = some bytes := by
      refine Option.ne_none_iff_exists'.1 fun hnone => ?_
      simp only [read, readVault, hnone] at hread
      cases hread
    obtain ⟨written, hwritten⟩ := h.file bytes hfile
    obtain ⟨-, keyset, hsound⟩ := h.stored written hwritten
    rw [read_eq hcrates h hwritten] at hread
    split at hread
    · cases hread
    · cases hread
      refine ⟨h.file, h.stored, fun opened hopened => ?_⟩
      simp only [hsound.unlocks] at hopened
      cases hopened
      exact ⟨hwritten, hsound⟩

theorem Inv.writeOneValue {session : Session} {name : EnvVarName}
    {value : Bytes} {now later : Except Error UInt64}
    {fillRandom : FillRandom CryptoError} {writeEnd : WriteEnd}
    (hcrates : crates.Faithful) (h : Inv crates s)
    (hsession : s.session = some session) :
    Inv crates (writeOneValue crates s session name value now later fillRandom writeEnd) := by
  unfold VaultReopening.writeOneValue
  split
  · exact h.close
  · rename_i vault hset
    have hsound := (h.session session hsession).2.sets hcrates hset
    refine h.write hsound ?_ writeEnd
    rintro opened ⟨⟩
    exact ⟨rfl, rfl⟩

theorem Inv.confirmAndRemove {session : Session}
    {requiredVaultValueNames : List EnvVarName} {now : Except Error UInt64}
    {writeEnd : WriteEnd} (h : Inv crates s) (hsession : s.session = some session) :
    Inv crates (confirmAndRemoveValuesNotRequiredByProfiles
      crates s session requiredVaultValueNames now writeEnd) := by
  unfold confirmAndRemoveValuesNotRequiredByProfiles
  split
  · exact h
  · split
    · exact h.close
    · rename_i vault hremove
      have hsound := (h.session session hsession).2.removes hremove
      refine h.write hsound ?_ writeEnd
      rintro opened ⟨⟩
      exact ⟨rfl, rfl⟩

theorem inv_step (hcrates : crates.Faithful) (event : Event) (h : Inv crates s) :
    Inv crates (step crates event s).1 := by
  unfold step
  split
  · split
    · rename_i hnone
      exact h.configureNew hcrates hnone
    · exact h
  · exact h.configureExisting hcrates
  · rename_i hsession
    exact h.writeOneValue hcrates hsession
  · rename_i hsession
    exact h.confirmAndRemove hsession
  · exact h.close
  · exact h

theorem inv_exec (hcrates : crates.Faithful) (events : List Event) :
    Inv crates (exec (step crates) events start) :=
  exec_invariant (Inv crates) (fun event _ => inv_step hcrates event) events (inv_start crates)

end Runs

/-- The vault is read back from the file as it was written, unlocks with the password of
its creation, and has the last value of each name, and no other. -/
def Reopens (crates : Crates) (s : State) (vault : VaultFile) : Prop :=
  read crates s = .ok vault ∧ ∃ keyset, unlock crates vault s.password = .ok keyset ∧
    (∀ (name : EnvVarName) value, s.values name.text = some value →
      vault.decryptValue crates keyset name = .ok value) ∧
    ∀ text, s.values text = none → vault.encryptedEnv.get text = none

/-- Only the size of its file keeps a vault from being opened again: it is not checked
when the file is written. -/
theorem reopens_iff (crates : Crates) (hcrates : crates.Faithful)
    (events : List Event) (vault : VaultFile)
    (hwritten : (exec (step crates) events start).written = some vault) :
    Reopens crates (exec (step crates) events start) vault ↔
      (fileBytes crates vault).length ≤ maxVaultFileBytes := by
  have h := inv_exec hcrates events
  have hread := read_eq hcrates h hwritten
  obtain ⟨-, keyset, hsound⟩ := h.stored vault hwritten
  constructor
  · rintro ⟨hok, -⟩
    rw [hread] at hok
    split at hok
    · cases hok
    · rename_i hlength
      exact Nat.not_lt.1 hlength
  · intro hlength
    rw [if_neg (Nat.not_lt.2 hlength)] at hread
    exact ⟨hread, keyset, hsound.unlocks, hsound.kept, hsound.absent⟩

section TooLarge

/-- The vault whose text was written, if there is one. -/
noncomputable def readBack (bytes : Bytes) : Option VaultFile :=
  open Classical in if h : ∃ vault, VaultText.toWriterPretty vault ++ [10] = bytes then some h.choose else none

theorem readBack_toWriterPretty (vault : VaultFile) :
    readBack (VaultText.toWriterPretty vault ++ [10]) = some vault := by
  have h : ∃ other, VaultText.toWriterPretty other ++ [10] = VaultText.toWriterPretty vault ++ [10] :=
    ⟨vault, rfl⟩
  rw [readBack, dif_pos h]
  exact congrArg some (VaultText.toWriterPretty_delimited.inj (List.append_cancel_right h.choose_spec))

/-- A cipher that leaves the plaintext as it is. -/
def plainAead (n : Nat) : Aead n where
  encrypt _ _ _ plaintext := some (plaintext ++ List.replicate tagSize 0)
  decrypt _ _ _ ciphertext := some (ciphertext.take (ciphertext.length - tagSize))

theorem plainAead_correct (n : Nat) : (plainAead n).Correct where
  decrypts h := by
    cases h
    simp [plainAead, tagSize]
  length h := by
    cases h
    simp

noncomputable def plainCrates : Crates where
  argon2 := PasswordSealedKey.oneKeyArgon2
  kdf _ := ⟨List.replicate keySize 5, rfl⟩
  xchacha := plainAead xchacha20Poly1305NonceSize
  aesGcmSiv := plainAead aes256GcmSivNonceSize
  texts := default
  toWriterPretty := VaultText.toWriterPretty
  fromSlice := readBack

theorem plainCrates_faithful : plainCrates.Faithful :=
  ⟨plainAead_correct _, plainAead_correct _, readBack_toWriterPretty⟩

theorem length_zeros (n : Nat) : (List.replicate n (0 : UInt8)).length = n := List.length_replicate

theorem length_zeroSalt : (List.replicate 16 (0 : UInt8)).length = 16 := rfl

def zeros : FillRandom CryptoError := fun _ n => .ok ⟨List.replicate n 0, length_zeros n⟩

def zeroDraws : VaultDraws := ⟨.ok ⟨List.replicate 16 0, length_zeroSalt⟩, .ok ⟨List.replicate 32 0, rfl⟩, zeros⟩

def creates : Event := .creates [112] (.ok 0) zeroDraws .done

theorem exists_of_any {ε α : Type} {result : Except ε α}
    {p : α → Bool} (h : result.toOption.any p = true) :
    ∃ a, result = .ok a ∧ p a = true := by
  cases result with
  | error source => cases h
  | ok a => exact ⟨a, rfl, h⟩

theorem plain_new : ∃ vault,
    VaultFile.new plainCrates [112] PasswordSealedKey.interactiveDefault (.ok 0) zeroDraws = .ok vault ∧
      (utf8 vault.vaultId).length = 22 ∧ vault.encryptedEnv.entries = [] ∧
        (fileBytes plainCrates vault).length ≤ maxVaultFileBytes := by
  have hnew : ∃ vault,
      VaultFile.new plainCrates [112] PasswordSealedKey.interactiveDefault (.ok 0) zeroDraws = .ok vault ∧
        decide ((utf8 vault.vaultId).length = 22 ∧ vault.encryptedEnv.entries = [] ∧
          (fileBytes plainCrates vault).length ≤ maxVaultFileBytes) = true :=
    exists_of_any (by decide +kernel)
  simpa only [decide_eq_true_eq] using hnew

theorem plain_created :
    ∃ vault keyset, (exec (step plainCrates) [creates] start).session = some ⟨vault, keyset⟩ ∧
    (exec (step plainCrates) [creates] start).written = some vault ∧
      (utf8 vault.vaultId).length = 22 ∧ vault.encryptedEnv.entries = [] ∧
        (fileBytes plainCrates vault).length ≤ maxVaultFileBytes := by
  obtain ⟨vault, hnew, hprops⟩ := plain_new
  obtain ⟨keyset, hsound⟩ := sound_new plainCrates_faithful hnew
  have hstep : exec (step plainCrates) [creates] start =
    configureNew plainCrates start [112] (.ok 0) zeroDraws .done := rfl
  refine ⟨vault, keyset, ?_, ?_, hprops⟩
  · rw [hstep, configureNew, hnew]
    simp only [State.writeVaultAtomically, hsound.unlocks]
    rfl
  · rw [hstep, configureNew, hnew]
    rfl

theorem utf8_replicate (n : Nat) : utf8 (List.replicate n 'A') = List.replicate n 65 := by
  induction n with
  | zero => rfl
  | succ n ih => rw [List.replicate_succ, Utf8Text.utf8_cons, ih]; rfl

/-- The name of so many letters A, and one more. -/
def nameOf (n : Nat) : EnvVarName where
  text := List.replicate (n + 1) 'A'
  valid := by
    rw [utf8_replicate, List.replicate_succ, isEnvVarName, List.all_replicate]
    simp

/-- Two values are set, the first of them twice, and the second is removed. -/
def changes : List Event :=
  [creates, .sets (nameOf 0) [1] (.ok 1) (.ok 1) zeros .done,
    .sets (nameOf 1) [2] (.ok 2) (.ok 2) zeros .done,
    .sets (nameOf 0) [3] (.ok 3) (.ok 3) zeros .done, .removes [nameOf 0] (.ok 4) .done, .closes]

/-- The vault is opened with the last value of the first name. -/
theorem reopens_changed :
    ∃ vault keyset, read plainCrates (exec (step plainCrates) changes start) = .ok vault ∧
      unlock plainCrates vault [112] = .ok keyset ∧
        vault.decryptValue plainCrates keyset (nameOf 0) = .ok [3] ∧
          vault.encryptedEnv.get (nameOf 1).text = none := by
  have hwritten : ∃ vault, (exec (step plainCrates) changes start).written = some vault ∧
      decide ((fileBytes plainCrates vault).length ≤ maxVaultFileBytes) = true :=
    (Option.any_eq_true _ _).1 (by decide +kernel)
  obtain ⟨vault, hwritten, hlength⟩ := hwritten
  have hopens := (reopens_iff plainCrates plainCrates_faithful changes vault hwritten).2
    (of_decide_eq_true hlength)
  obtain ⟨hread, keyset, hunlocks, hkept, habsent⟩ := hopens
  exact ⟨vault, keyset, hread, hunlocks, hkept (nameOf 0) [3] (by decide +kernel),
    habsent (nameOf 1).text (by decide +kernel)⟩

@[irreducible] def megabyte : Bytes := List.replicate (2 ^ 20) 0

theorem length_megabyte : megabyte.length = 2 ^ 20 := by
  rw [megabyte, List.length_replicate]

def setsMegabyte (name : EnvVarName) : Event := .sets name megabyte (.ok 0) (.ok 0) zeros .done

theorem latestKey_of_unlock {crates : Crates} {vault : VaultFile} {keyset : Keyset} {password : Bytes}
    (h : unlock crates vault password = .ok keyset) : ∃ key, keyset.latestKey = some key := by
  obtain ⟨hderived, -⟩ := unlockVaultKeyset_eq_ok.1 h
  obtain ⟨salt, -, hderived⟩ := bind_eq_ok.1 hderived
  obtain ⟨params, -, hderived⟩ := bind_eq_ok.1 hderived
  obtain ⟨key, -, hderived⟩ := bind_eq_ok.1 hderived
  rw [(KeysetDerivation.deriveKeysetFromLatestFirstKeys_eq_ok (mapError_eq_ok.1 hderived)).2]
  exact ⟨_, rfl⟩

theorem length_entryAssociatedData {vault : VaultFile} {name : EnvVarName} {entry : EncryptedEnvEntry}
    (hid : (utf8 vault.vaultId).length = 22) (hname : (utf8 name.text).length ≤ 100) :
    (entryAssociatedData vault name entry).length ≤ maxAssociatedDataSize := by
  have hdomain : localEnvVaultEntryAssociatedDataDomain.length = 33 := by decide +kernel
  have hsize : 175 ≤ maxAssociatedDataSize := by decide
  simp only [entryAssociatedData, pushAdPart, List.length_append, length_beBytes, hid, hdomain]
  omega

/-- A value is written as more than four thirds of it. -/
theorem plain_sets (name : EnvVarName) (value : Bytes) {vault : VaultFile} {keyset : Keyset}
    {key : ParanoidKey} (hkey : keyset.latestKey = some key)
    (hid : (utf8 vault.vaultId).length = 22) (hname : (utf8 name.text).length ≤ 100)
    (hvalue : value.length ≤ maxPlaintextSize) :
    ∃ changed entry, vault.setEncryptedValue plainCrates keyset name value (.ok 0) (.ok 0) zeros =
      .ok changed ∧ changed.vaultId = vault.vaultId ∧
        changed.encryptedEnv = vault.encryptedEnv.insert name.text entry ∧
          (value.length + 146) * 4 ≤ 3 * entry.ciphertext.length := by
  have hassociated : (entryAssociatedData vault name ⟨encryptedEntryVersion, 0, []⟩).length ≤
    maxAssociatedDataSize :=
    length_entryAssociatedData hid hname
  have hsealed : ∃ encrypted, encryptBytesWithAssociatedData
    plainCrates.kdf plainCrates.xchacha plainCrates.aesGcmSiv keyset
      value (entryAssociatedData vault name ⟨encryptedEntryVersion, 0, []⟩) zeros = .ok encrypted :=
    encryptBytes_ok hkey hvalue hassociated (fun call n => ⟨_, rfl⟩)
      (fun query => ⟨_, rfl⟩) fun query => ⟨_, rfl⟩
  obtain ⟨encrypted, hencrypted⟩ := hsealed
  obtain ⟨s⟩ := layers_of_encrypt hkey hencrypted
  have htotal := s.total plainCrates_faithful.xchacha plainCrates_faithful.aesGcmSiv
  obtain ⟨-, hroom, -⟩ := paddedPayloadLen_spec s.padded
  have hsizes : headerSize + cascadeTagOverhead = 138 ∧ trueLengthSize = 8 := by decide
  let entry : EncryptedEnvEntry := ⟨encryptedEntryVersion, 0, toBase64Url plainCrates.texts encrypted⟩
  refine ⟨{ vault with
    encryptedEnv := vault.encryptedEnv.insert name.text entry
    updatedAtUnixSeconds := 0 }, entry, ?_, rfl, rfl, ?_⟩
  · simp only [VaultFile.setEncryptedValue, ok_bind, hencrypted, mapError_ok, pure_eq_ok, entry]
  · rw [length_toBase64Url, htotal]
    omega

theorem insertEntry_perm {entries : List (Text × EncryptedEnvEntry)}
    {name : Text} {entry : EncryptedEnvEntry}
    (h : name ∉ entries.map Prod.fst) :
    (insertEntry name entry entries).Perm ((name, entry) :: entries) := by
  induction entries with
  | nil => exact List.Perm.refl _
  | cons stored rest ih =>
      obtain ⟨other, value⟩ := stored
      rw [List.map_cons, List.mem_cons, not_or] at h
      rw [insertEntry, if_neg h.1]
      split
      · exact List.Perm.refl _
      · exact ((ih h.2).cons _).trans (List.Perm.swap _ _ _)

def ciphertextBytes (vault : VaultFile) : Nat :=
  (vault.encryptedEnv.entries.map fun entry => entry.2.ciphertext.length).sum

theorem plain_sets_many (names : List EnvVarName) (hnames : ∀ name ∈ names, (utf8 name.text).length ≤ 100)
    (hnodup : (names.map (·.text)).Nodup) {s : State}
    {vault : VaultFile} {keyset : Keyset} {key : ParanoidKey}
    (hkey : keyset.latestKey = some key) (hid : (utf8 vault.vaultId).length = 22)
    (hsession : s.session = some ⟨vault, keyset⟩)
    (hwritten : s.written = some vault)
    (hfresh : ∀ name ∈ names, name.text ∉ vault.encryptedEnv.entries.map Prod.fst) :
    ∃ changed, (exec (step plainCrates) (names.map setsMegabyte) s).written = some changed ∧
      1398296 * names.length + ciphertextBytes vault ≤ ciphertextBytes changed := by
  induction names generalizing s vault with
  | nil => exact ⟨vault, hwritten, by simp⟩
  | cons name names ih =>
      rw [List.forall_mem_cons] at hnames hfresh
      rw [List.map_cons, List.nodup_cons] at hnodup
      obtain ⟨changed, entry, hset, hsameId, hentries, hlength⟩ :=
        plain_sets name megabyte hkey hid hnames.1 length_megabyte.le
      rw [length_megabyte] at hlength
      have hperm : (vault.encryptedEnv.insert name.text entry).entries.Perm
          ((name.text, entry) :: vault.encryptedEnv.entries) := insertEntry_perm hfresh.1
      have hstep : (step plainCrates (setsMegabyte name) s).1 = s.writeVaultAtomically plainCrates changed
          (Function.update s.values name.text (some megabyte)) (some ⟨changed, keyset⟩) .done := by
        simp only [setsMegabyte, step, hsession, writeOneValue, hset]
      have hfresh' : ∀ other ∈ names, other.text ∉ changed.encryptedEnv.entries.map Prod.fst := by
        intro other hother
        rw [hentries, (hperm.map Prod.fst).mem_iff, List.map_cons, List.mem_cons, not_or]
        refine ⟨fun heq => hnodup.1 (List.mem_map.2 ⟨other, hother, heq⟩), hfresh.2 other hother⟩
      have hbytes : ciphertextBytes changed = entry.ciphertext.length + ciphertextBytes vault := by
        rw [ciphertextBytes, hentries, (hperm.map _).sum_eq]
        rfl
      rw [List.map_cons, exec_cons, hstep]
      have hsession' : (s.writeVaultAtomically plainCrates changed
        (Function.update s.values name.text (some megabyte))
          (some ⟨changed, keyset⟩) .done).session = some ⟨changed, keyset⟩ := rfl
      obtain ⟨last, hlast, hsum⟩ := ih hnames.2 hnodup.2 (hsameId.symm ▸ hid) hsession' rfl hfresh'
      refine ⟨last, hlast, ?_⟩
      rw [List.length_cons]
      omega

/-- A vault with fifty values of a megabyte. -/
def fiftyMegabytes : List Event := [creates] ++ ((List.range 50).map nameOf).map setsMegabyte

/-- It is written, and cannot be read. -/
theorem written_never_reopens :
    ∃ vault, (exec (step plainCrates) fiftyMegabytes start).written = some vault ∧
    ¬Reopens plainCrates (exec (step plainCrates) fiftyMegabytes start) vault := by
  obtain ⟨vault, keyset, hsession, hwritten, hid, hempty, -⟩ := plain_created
  have h := inv_exec plainCrates_faithful [creates]
  obtain ⟨key, hkey⟩ := latestKey_of_unlock (h.session _ hsession).2.unlocks
  have hnodup : (((List.range 50).map nameOf).map (·.text)).Nodup := by
    rw [List.map_map]
    refine List.Nodup.map (fun a b heq => ?_) List.nodup_range
    simpa [nameOf] using congrArg List.length heq
  have hnames : ∀ name ∈ (List.range 50).map nameOf, (utf8 name.text).length ≤ 100 := by
    intro name hname
    obtain ⟨n, hn, rfl⟩ := List.mem_map.1 hname
    have hlt := List.mem_range.1 hn
    simp only [nameOf, utf8_replicate, List.length_replicate]
    omega
  obtain ⟨changed, hchanged, hsum⟩ :=
    plain_sets_many _ hnames hnodup hkey hid hsession hwritten (by rw [hempty]; exact fun _ _ => List.not_mem_nil)
  have hrun : exec (step plainCrates) fiftyMegabytes start =
      exec (step plainCrates) (((List.range 50).map nameOf).map setsMegabyte)
        (exec (step plainCrates) [creates] start) := by
    rw [fiftyMegabytes, exec_append]
  rw [hrun]
  refine ⟨changed, hchanged, ?_⟩
  have hinv := inv_exec plainCrates_faithful fiftyMegabytes
  rw [hrun] at hinv
  have hread := read_eq plainCrates_faithful hinv hchanged
  have hlong : maxVaultFileBytes < (fileBytes plainCrates changed).length := by
    have hbytes : ciphertextBytes changed ≤ (fileBytes plainCrates changed).length := by
      have htext := VaultText.length_toWriterPretty changed
      rw [fileBytes, List.length_append]
      exact Nat.le_add_right_of_le htext
    rw [List.length_map, List.length_range] at hsum
    have hmax : maxVaultFileBytes = 67108864 := rfl
    omega
  rw [if_pos hlong] at hread
  rintro ⟨hok, -⟩
  rw [hread] at hok
  cases hok

end TooLarge

end Paranoid.VaultReopening
