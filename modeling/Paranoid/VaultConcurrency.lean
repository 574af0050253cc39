import Paranoid.LocalLock
import Paranoid.VaultReopening

namespace Paranoid.VaultConcurrency

open ByteCodecs CryptoPrimitives LocalLock Postgres Transitions VaultModel
open EnvelopeModel hiding utf8
open Utf8Text (utf8)
open VaultReopening (WriteEnd)

def vaultLockStaleAfter : Nat := 3000000000

/-- What a session does to the vault in its memory. -/
inductive Change
  | writeOneValue (name : EnvVarName) (value : Bytes) (now later : Except Error UInt64) (fillRandom : FillRandom CryptoError)
  | removeNotRequired (requiredVaultValueNames : List EnvVarName) (now : Except Error UInt64)

/-- Where a session is, with the vault in its memory. What was in the file before its last
write is ghost state. -/
inductive Session
  | locking
  | found
  | opened (vault : Option VaultFile)
  | creating (password : Bytes) (vault : VaultFile)
  | created (password : Bytes) (vault : VaultFile)
  | ready (keyset : Keyset) (vault : VaultFile)
  | changing (keyset : Keyset) (vault : VaultFile) (change : Change)
  | changed (keyset : Keyset) (vault : VaultFile) (change : Change) (previous : Option Bytes)
  | ended

/-- A change that a session has reported as stored or removed, and the file before and
after the session's write. -/
structure Report where
  keyset : Keyset
  change : Change
  previous : Option Bytes
  written : Bytes

/-- What was in the file before each write of a new vault is ghost state. -/
structure State where
  lock : LocalLockModel.State
  file : Option Bytes
  session : Nat → Session
  creations : List (Option Bytes)
  reports : List Report

inductive Event
  | lock (event : LocalLockModel.Event)
  | looks (p : Nat)
  | reads (p : Nat)
  | unlocks (p : Nat) (password : Bytes)
  | creates (p : Nat) (password : Bytes) (params : PasswordSealedKey.PasswordKdfParams) (now : Except Error UInt64)
      (draws : VaultDraws)
  | changes (p : Nat) (change : Change)
  | writes (p : Nat) (writeEnd : WriteEnd)
  | confirms (p : Nat)
  | ends (p : Nat)

/-- The lock file is there before, with any content, or is not, and so is the vault. -/
def start (now : Nat) (lockFile : Option LocalLockModel.File) (file : Option Bytes) : State :=
  ⟨LocalLockModel.start now lockFile, file, fun _ => .locking, [], []⟩

def ensureVaultLockStillOwned (process : LocalLockModel.Process) : Bool :=
  !process.lockLost && process.held

def State.enter (s : State) (p : Nat) (session : Session) : State :=
  { s with session := Function.update s.session p session }

/-- The session goes on to where it is to be, unless the lock is lost. -/
def State.ensureStillOwned (s : State) (p : Nat) (session : Session) : State :=
  s.enter p (if ensureVaultLockStillOwned (s.lock.process p) then session else .ended)

variable (crates : Crates)

def Change.apply (keyset : Keyset) (vault : VaultFile) : Change → Except Error VaultFile
  | .writeOneValue name value now later fillRandom =>
      vault.setEncryptedValue crates keyset name value now later fillRandom
  | .removeNotRequired requiredVaultValueNames now =>
      removeVaultEntriesNotRequiredByProfiles vault requiredVaultValueNames now

/-- The session goes on with the vault unlocked, or ends. -/
def unlocked (password : Bytes) (vault : VaultFile) : Session :=
  match VaultReopening.unlock crates vault password with
  | .ok keyset => .ready keyset vault
  | .error _ => .ended

/-- The vault is renamed into its place. -/
def writeVaultAtomically (s : State) (p : Nat) (vault : VaultFile) (next : Session) : WriteEnd → State
  | .done => { s with file := some (fileBytes crates vault) }.enter p next
  | .refused => s.enter p .ended
  | .replaced => { s with file := some (fileBytes crates vault) }.enter p .ended

/-- A write that replaces the file of the vault found this in it. -/
def State.creates (s : State) : WriteEnd → State
  | .done | .replaced => { s with creations := s.creations ++ [s.file] }
  | .refused => s

section Configure

def vaultFileExistsOrConflicts (s : State) (p : Nat) : Session → State
  | .locking => s.enter p (if s.file.isSome then .found else .opened none)
  | _ => s

def readsVault (s : State) (p : Nat) : Session → State
  | .found =>
      match readVault crates s.file with
      | .ok vault => s.enter p (.opened (some vault))
      | .error _ => s.enter p .ended
  | _ => s

def unlocksVault (s : State) (p : Nat) (password : Bytes) : Session → State
  | .opened (some vault) => s.ensureStillOwned p (unlocked crates password vault)
  | _ => s

def createsVault (s : State) (p : Nat) (password : Bytes) (params : PasswordSealedKey.PasswordKdfParams)
    (now : Except Error UInt64) (draws : VaultDraws) : Session → State
  | .opened none =>
      match VaultFile.new crates password params now draws with
      | .ok vault => s.ensureStillOwned p (.creating password vault)
      | .error _ => s.enter p .ended
  | _ => s

/-- The first of the two checks of `run_while_owned`. -/
def beginsChange (s : State) (p : Nat) (change : Change) : Session → State
  | .ready keyset vault => s.ensureStillOwned p (.changing keyset vault change)
  | _ => s

/-- What runs between the two checks. -/
def writesVault (s : State) (p : Nat) (writeEnd : WriteEnd) : Session → State
  | .creating password vault =>
      writeVaultAtomically crates (s.creates writeEnd) p vault (.created password vault) writeEnd
  | .changing keyset vault change =>
      match change.apply crates keyset vault with
      | .ok vault => writeVaultAtomically crates s p vault (.changed keyset vault change s.file) writeEnd
      | .error _ => s.enter p .ended
  | _ => s

/-- The second of the two checks, and what is reported after it. -/
def confirmsChange (s : State) (p : Nat) : Session → State
  | .created password vault => s.ensureStillOwned p (unlocked crates password vault)
  | .changed keyset vault change previous =>
      if ensureVaultLockStillOwned (s.lock.process p) then
        let report : Report := ⟨keyset, change, previous, fileBytes crates vault⟩
        { s with reports := s.reports ++ [report] }.enter p (.ready keyset vault)
      else s.enter p .ended
  | _ => s

end Configure

/-- A session runs while its process has the lock. -/
def configure (s : State) (p : Nat) (run : Session → State) : State :=
  match (s.lock.process p).phase with
  | .holding => run (s.session p)
  | _ => s

/-- The lock is released when the session has ended. -/
def lockStep (s : State) (event : LocalLockModel.Event) : State :=
  { s with lock := (LocalLockModel.step (fun _ => vaultLockStaleAfter) event s.lock).1 }

def step (event : Event) (s : State) : State × Unit :=
  match event with
  | .lock (.releases p) =>
      match s.session p with
      | .ended => (lockStep s (.releases p), ())
      | _ => (s, ())
  | .lock event => (lockStep s event, ())
  | .looks p => (configure s p (vaultFileExistsOrConflicts s p), ())
  | .reads p => (configure s p (readsVault crates s p), ())
  | .unlocks p password => (configure s p (unlocksVault crates s p password), ())
  | .creates p password params now draws =>
      (configure s p (createsVault crates s p password params now draws), ())
  | .changes p change => (configure s p (beginsChange s p change), ())
  | .writes p writeEnd => (configure s p (writesVault crates s p writeEnd), ())
  | .confirms p => (configure s p (confirmsChange crates s p), ())
  | .ends p => (configure s p fun _ => s.enter p .ended, ())

section Invariant

/-- A session writes while the lock file at the path is its own. -/
def Guarded (s : State) : Event → Prop
  | .writes _ .refused => True
  | .writes p _ => s.lock.path = (s.lock.process p).created
  | _ => True

/-- The file that was written is that before the write with the session's own change. -/
def Truthful (report : Report) : Prop :=
  ∃ before after, report.previous.bind crates.fromSlice = some before ∧
    report.change.apply crates report.keyset before = .ok after ∧ report.written = fileBytes crates after

/-- The vault that the session believes to be in the file. -/
def Session.Believes (file : Option Bytes) : Session → Prop
  | .locking | .found | .ended => True
  | .opened none | .creating _ _ => file = none
  | .opened (some vault) | .created _ vault | .ready _ vault | .changing _ vault _ | .changed _ vault _ _ =>
      file.bind crates.fromSlice = some vault

/-- A change that is written and not reported yet. -/
def Session.Pending : Session → Prop
  | .changed keyset vault change previous => Truthful crates ⟨keyset, change, previous, fileBytes crates vault⟩
  | _ => True

structure Inv (s : State) : Prop where
  owned : Owned s.lock
  taken : ∀ p, s.session p = .locking ∨ (s.lock.process p).created ≠ none
  believes : ∀ p, s.lock.path = (s.lock.process p).created → (s.session p).Believes crates s.file
  pending : ∀ p, (s.session p).Pending crates
  creations : ∀ found ∈ s.creations, found = none
  reports : ∀ report ∈ s.reports, Truthful crates report

variable {crates} {s : State} {p q : Nat} {session : Session}
  {keyset : Keyset} {vault : VaultFile} {password : Bytes}
  {change : Change}

theorem session_enter_self : (s.enter p session).session p = session := by simp [State.enter]

theorem session_enter_of_ne (hq : q ≠ p) : (s.enter p session).session q = s.session q := by
  simp [State.enter, hq]

theorem Inv.enter (h : Inv crates s) (hcreated : (s.lock.process p).created ≠ none)
    (hbelieves : s.lock.path = (s.lock.process p).created → session.Believes crates s.file)
    (hpending : session.Pending crates) : Inv crates (s.enter p session) := by
  refine ⟨h.owned, ?_, ?_, ?_, h.creations, h.reports⟩
  · intro q
    by_cases hq : q = p
    · rw [hq]
      exact .inr hcreated
    · rw [session_enter_of_ne hq]
      exact h.taken q
  · intro q howner
    by_cases hq : q = p
    · subst hq
      rw [session_enter_self]
      exact hbelieves howner
    · rw [session_enter_of_ne hq]
      exact h.believes q howner
  · intro q
    by_cases hq : q = p
    · rw [hq, session_enter_self]
      exact hpending
    · rw [session_enter_of_ne hq]
      exact h.pending q

theorem Inv.ends (h : Inv crates s) (hcreated : (s.lock.process p).created ≠ none) :
    Inv crates (s.enter p .ended) :=
  h.enter hcreated (fun _ => trivial) trivial

theorem Inv.ensured (h : Inv crates s) (hcreated : (s.lock.process p).created ≠ none)
    (hbelieves : s.lock.path = (s.lock.process p).created → session.Believes crates s.file)
    (hpending : session.Pending crates) : Inv crates (s.ensureStillOwned p session) := by
  unfold State.ensureStillOwned
  split
  · exact h.enter hcreated hbelieves hpending
  · exact h.ends hcreated

/-- No other session has its lock file at the path, so that what it believes of the file
does not matter any more. -/
theorem Inv.write (h : Inv crates s) (hcreated : (s.lock.process p).created ≠ none)
    (howner : s.lock.path = (s.lock.process p).created)
    (hbelieves : session.Believes crates (some (fileBytes crates vault)))
    (hpending : session.Pending crates) :
    Inv crates ({ s with file := some (fileBytes crates vault) }.enter p session) := by
  refine ⟨h.owned, ?_, ?_, ?_, h.creations, h.reports⟩
  · intro q
    by_cases hq : q = p
    · rw [hq]
      exact .inr hcreated
    · rw [session_enter_of_ne hq]
      exact h.taken q
  · intro q howner'
    by_cases hq : q = p
    · rw [hq, session_enter_self]
      exact hbelieves
    · obtain ⟨file, hfile⟩ := Option.ne_none_iff_exists'.1 hcreated
      have hq_created : (s.lock.process q).created = some file :=
        howner'.symm.trans (howner.trans hfile)
      exact absurd (h.owned.apart q p file hq_created hfile) hq
  · intro q
    by_cases hq : q = p
    · rw [hq, session_enter_self]
      exact hpending
    · rw [session_enter_of_ne hq]
      exact h.pending q

/-- A vault is made where no vault is. -/
theorem Inv.creates (h : Inv crates s) {writeEnd : WriteEnd} (hguard : Guarded s (.writes p writeEnd))
    (hnone : s.lock.path = (s.lock.process p).created → s.file = none) :
    Inv crates (s.creates writeEnd) := by
  cases writeEnd with
  | refused => exact h
  | done | replaced =>
      refine ⟨h.owned, h.taken, h.believes, h.pending, ?_, h.reports⟩
      intro found hfound
      rcases List.mem_append.1 hfound with hfound | hfound
      · exact h.creations found hfound
      · rw [List.mem_singleton.1 hfound]
        exact hnone hguard

theorem Inv.lock (h : Inv crates s) (event : LocalLockModel.Event) : Inv crates (lockStep s event) := by
  have howned : Owned (lockStep s event).lock := owned_step event h.owned
  have hcases : Keeps s.lock (lockStep s event).lock ∨
    ∃ p left, (s.lock.process p).phase = .creating left ∧
      s.lock.path = none ∧ (lockStep s event).lock = s.lock.create p := keeps_step event s.lock
  rcases hcases with hkeeps | ⟨p, left, hp, hpath, hcreates⟩
  · refine ⟨howned, ?_, ?_, h.pending, h.creations, h.reports⟩
    · intro q
      rw [hkeeps.created]
      exact h.taken q
    · intro q howner
      rw [hkeeps.created] at howner
      change (s.session q).Believes crates s.file
      rcases hkeeps.path with hsame | hnone
      · exact h.believes q (hsame.symm.trans howner)
      · rcases h.taken q with hlocking | hcreated
        · rw [hlocking]
          trivial
        · exact absurd (howner.symm.trans hnone) hcreated
  · have hnone : (s.lock.process p).created = none := by
      apply h.owned.unplaced
      rw [hp]
      trivial
    -- the process that creates the lock file has not begun its session
    have hlocking : s.session p = .locking := by
      rcases h.taken p with hlocking | hcreated
      · exact hlocking
      · exact absurd hnone hcreated
    refine ⟨howned, ?_, ?_, h.pending, h.creations, h.reports⟩
    · intro q
      by_cases hq : q = p
      · rw [hq]
        exact .inl hlocking
      · rw [hcreates, process_create_of_ne hq]
        exact h.taken q
    · intro q howner
      change (s.session q).Believes crates s.file
      by_cases hq : q = p
      · rw [hq, hlocking]
        trivial
      · rw [hcreates, process_create_of_ne hq] at howner
        exact absurd (h.owned.below q s.lock.next howner.symm) (Nat.lt_irrefl _)

theorem Inv.unlocks (h : Inv crates s) (hcreated : (s.lock.process p).created ≠ none)
    (hbelieves : s.lock.path = (s.lock.process p).created → s.file.bind crates.fromSlice = some vault) :
    Inv crates (s.ensureStillOwned p (unlocked crates password vault)) := by
  unfold unlocked
  split
  · exact h.ensured hcreated hbelieves trivial
  · exact h.ensured hcreated (fun _ => trivial) trivial

theorem fromSlice_of_read {file : Option Bytes}
    (h : readVault crates file = .ok vault) :
    file.bind crates.fromSlice = some vault := by
  cases file with
  | none => cases h
  | some bytes =>
      simp only [readVault] at h
      obtain ⟨-, -, h⟩ := bind_eq_ok.1 h
      cases hparsed : crates.fromSlice bytes with
      | none =>
          rw [hparsed] at h
          cases h
      | some parsed =>
          rw [hparsed] at h
          obtain ⟨-, -, h⟩ := bind_eq_ok.1 h
          cases h
          exact hparsed

section Steps

variable (h : Inv crates s) (hcreated : (s.lock.process p).created ≠ none)

include h hcreated

theorem inv_vaultFileExistsOrConflicts : Inv crates (vaultFileExistsOrConflicts s p (s.session p)) := by
  unfold vaultFileExistsOrConflicts
  split
  · cases hfile : s.file with
    | none => exact h.enter hcreated (fun _ => hfile) trivial
    | some _ => exact h.enter hcreated (fun _ => trivial) trivial
  · exact h

theorem inv_readsVault : Inv crates (readsVault crates s p (s.session p)) := by
  unfold readsVault
  split
  · split <;> rename_i hread
    · exact h.enter hcreated (fun _ => fromSlice_of_read hread) trivial
    · exact h.ends hcreated
  · exact h

theorem inv_unlocksVault : Inv crates (unlocksVault crates s p password (s.session p)) := by
  have hbelieves := h.believes p
  unfold unlocksVault
  split <;> rename_i hp
  · rw [hp] at hbelieves
    exact h.unlocks hcreated hbelieves
  · exact h

theorem inv_createsVault {params : PasswordSealedKey.PasswordKdfParams}
    {now : Except Error UInt64} {draws : VaultDraws} :
    Inv crates (createsVault crates s p password params now draws (s.session p)) := by
  have hbelieves := h.believes p
  unfold createsVault
  split <;> rename_i hp
  · rw [hp] at hbelieves
    split
    · exact h.ensured hcreated hbelieves trivial
    · exact h.ends hcreated
  · exact h

theorem inv_beginsChange : Inv crates (beginsChange s p change (s.session p)) := by
  have hbelieves := h.believes p
  unfold beginsChange
  split <;> rename_i hp
  · rw [hp] at hbelieves
    exact h.ensured hcreated hbelieves trivial
  · exact h

theorem inv_writesVault {writeEnd : WriteEnd}
    (hfromSlice : ∀ vault, crates.fromSlice (fileBytes crates vault) = some vault)
    (hguard : Guarded s (.writes p writeEnd)) :
    Inv crates (writesVault crates s p writeEnd (s.session p)) := by
  have hbelieves := h.believes p
  unfold writesVault
  split <;> rename_i hp
  · rw [hp] at hbelieves
    have hcreates : Inv crates (s.creates writeEnd) := h.creates hguard hbelieves
    cases writeEnd with
    | done => exact hcreates.write hcreated hguard (hfromSlice _) trivial
    | refused => exact hcreates.ends hcreated
    | replaced => exact hcreates.write hcreated hguard trivial trivial
  · rw [hp] at hbelieves
    split <;> rename_i happly
    · cases writeEnd with
      | done => exact h.write hcreated hguard (hfromSlice _) ⟨_, _, hbelieves hguard, happly, rfl⟩
      | refused => exact h.ends hcreated
      | replaced => exact h.write hcreated hguard trivial trivial
    · exact h.ends hcreated
  · exact h

theorem inv_confirmsChange : Inv crates (confirmsChange crates s p (s.session p)) := by
  have hbelieves := h.believes p
  have hpending := h.pending p
  unfold confirmsChange
  split <;> rename_i hp
  · rw [hp] at hbelieves
    exact h.unlocks hcreated hbelieves
  · rw [hp] at hbelieves hpending
    split
    · rename_i keyset vault change previous _
      have hreports : Inv crates { s with
        reports := s.reports ++ [⟨keyset, change, previous, fileBytes crates vault⟩] } := by
        refine ⟨h.owned, h.taken, h.believes, h.pending, h.creations, ?_⟩
        intro report hmem
        rcases List.mem_append.1 hmem with hmem | hmem
        · exact h.reports report hmem
        · rw [List.mem_singleton.1 hmem]
          exact hpending
      exact hreports.enter hcreated hbelieves trivial
    · exact h.ends hcreated
  · exact h

end Steps

theorem Inv.configure {run : Session → State} (h : Inv crates s)
    (hrun : (s.lock.process p).created ≠ none → Inv crates (run (s.session p))) :
    Inv crates (configure s p run) := by
  have htaken := h.owned.taken p
  unfold VaultConcurrency.configure
  split <;> rename_i hp
  · rw [hp] at htaken
    exact hrun (htaken trivial)
  · exact h

theorem inv_step (hfromSlice : ∀ vault, crates.fromSlice (fileBytes crates vault) = some vault)
    (event : Event) (s : State)
    (hguard : Guarded s event) (h : Inv crates s) : Inv crates (step crates event s).1 := by
  cases event with
  | lock event =>
      cases event with
      | releases p =>
          simp only [step]
          split
          · exact h.lock _
          · exact h
      | clock | acquires | proceeds | beats | dies => exact h.lock _
  | looks p => exact h.configure (inv_vaultFileExistsOrConflicts h)
  | reads p => exact h.configure (inv_readsVault h)
  | unlocks p password => exact h.configure (inv_unlocksVault h)
  | creates p password params now draws => exact h.configure fun hcreated => inv_createsVault h hcreated
  | changes p change => exact h.configure (inv_beginsChange h)
  | writes p writeEnd => exact h.configure fun hcreated => inv_writesVault h hcreated hfromSlice hguard
  | confirms p => exact h.configure (inv_confirmsChange h)
  | ends p =>
      simp only [step]
      exact h.configure fun hcreated => h.ends hcreated

theorem inv_start (crates : Crates) (now : Nat)
    (lockFile : Option LocalLockModel.File) (file : Option Bytes) :
    Inv crates (start now lockFile file) :=
  ⟨owned_start now lockFile, fun _ => .inl rfl, fun _ _ => trivial, fun _ => trivial,
    fun _ hfound => absurd hfound List.not_mem_nil, fun _ hreport => absurd hreport List.not_mem_nil⟩

/-- What a session reports is what the file was before its write with its own change, and a
vault is made only where no vault is, in a run in which sessions write while the lock file at
the path is their own. -/
theorem no_lost_update (crates : Crates)
    (hfromSlice : ∀ vault, crates.fromSlice (fileBytes crates vault) = some vault) (now : Nat)
    (lockFile : Option LocalLockModel.File) (file : Option Bytes) (events : List Event)
    (hguard : Meets (fun event s => Guarded s event) (step crates) events (start now lockFile file)) :
    (∀ report ∈ (exec (step crates) events (start now lockFile file)).reports,
      Truthful crates report) ∧
      ∀ found ∈ (exec (step crates) events (start now lockFile file)).creations, found = none := by
  have hinv : Inv crates (exec (step crates) events (start now lockFile file)) :=
    exec_preserves (inv_step hfromSlice) hguard (inv_start crates now lockFile file)
  exact ⟨hinv.reports, hinv.creations⟩

end Invariant

section Runs

open VaultReopening

variable {lock : LocalLockModel.State} {file : Option Bytes} {sessions : Nat → Session}
  {creations : List (Option Bytes)} {reports : List Report} {name : EnvVarName} {value : Bytes}
  {changed : VaultFile} {crates : Crates}

/-- A session that has ended lets go of the lock. -/
theorem exec_lock (events : List LocalLockModel.Event) {s : State}
    (hreleases : ∀ p, .releases p ∈ events → s.session p = .ended) :
    exec (step crates) (events.map .lock) s =
      { s with lock := exec (LocalLockModel.step fun _ => vaultLockStaleAfter) events s.lock } := by
  induction events generalizing s with
  | nil => rfl
  | cons event events ih =>
      have hstep : (step crates (.lock event) s).1 = lockStep s event := by
        cases event with
        | releases p =>
            simp only [step]
            rw [hreleases p List.mem_cons_self]
        | clock | acquires | proceeds | beats | dies => rfl
      have hrest : ∀ p, .releases p ∈ events → (lockStep s event).session p = .ended :=
        fun p hp => hreleases p (List.mem_cons_of_mem event hp)
      rw [List.map_cons, exec_cons, hstep, ih hrest]
      rfl

def makes (p : Nat) : List Event :=
  [.looks p, .creates p [112] PasswordSealedKey.interactiveDefault (.ok 0) zeroDraws,
    .writes p .done, .confirms p]

def opens (p : Nat) : List Event := [.looks p, .reads p, .unlocks p [112]]

def stores (p : Nat) (name : EnvVarName) (value : Bytes) : List Event :=
  [.changes p (.writeOneValue name value (.ok 0) (.ok 0) zeros), .writes p .done, .confirms p]

theorem exec_makes (hp : (lock.process p).phase = .holding)
    (howned : ensureVaultLockStillOwned (lock.process p) = true)
    (hnew : VaultFile.new crates [112] PasswordSealedKey.interactiveDefault (.ok 0) zeroDraws = .ok vault)
    (hunlock : VaultReopening.unlock crates vault [112] = .ok keyset)
    (hsession : sessions p = .locking) :
    exec (step crates) (makes p) ⟨lock, none, sessions, creations, reports⟩ =
      ⟨lock, some (fileBytes crates vault), Function.update sessions p (.ready keyset vault),
        creations ++ [none], reports⟩ := by
  simp only [makes, exec_cons, exec_nil, step, configure,
    State.enter, State.ensureStillOwned, State.creates, hp, howned, hsession,
    vaultFileExistsOrConflicts, Option.isSome_none, Bool.false_eq_true,
      if_false, if_true, createsVault, Function.update_self,
    hnew, writesVault, writeVaultAtomically, confirmsChange, unlocked, hunlock, Function.update_idem]

theorem exec_opens (hp : (lock.process p).phase = .holding)
    (howned : ensureVaultLockStillOwned (lock.process p) = true)
    (hread : readVault crates (some (fileBytes crates vault)) = .ok vault)
    (hunlock : VaultReopening.unlock crates vault [112] = .ok keyset)
    (hsession : sessions p = .locking) :
    exec (step crates) (opens p) ⟨lock, some (fileBytes crates vault), sessions, creations, reports⟩ =
      ⟨lock, some (fileBytes crates vault), Function.update sessions p (.ready keyset vault),
        creations, reports⟩ := by
  simp only [opens, exec_cons, exec_nil, step, configure,
    State.enter, State.ensureStillOwned, hp, howned, hsession,
    vaultFileExistsOrConflicts, Option.isSome_some, if_true,
      readsVault, hread, unlocksVault, Function.update_self, unlocked,
    hunlock, Function.update_idem]

/-- A session that has the lock, or believes so, stores a value. -/
theorem exec_stores (hp : (lock.process p).phase = .holding)
    (howned : ensureVaultLockStillOwned (lock.process p) = true)
    (hsession : sessions p = .ready keyset vault)
    (hchanged : vault.setEncryptedValue crates keyset name value (.ok 0) (.ok 0) zeros = .ok changed) :
    exec (step crates) (stores p name value) ⟨lock, file, sessions, creations, reports⟩ =
      ⟨lock, some (fileBytes crates changed), Function.update sessions p (.ready keyset changed), creations,
        reports ++ [⟨keyset, .writeOneValue name value (.ok 0) (.ok 0) zeros,
          file, fileBytes crates changed⟩]⟩ := by
  simp only [stores, exec_cons, exec_nil, step, configure,
    State.enter, State.ensureStillOwned, hp, howned, hsession,
    beginsChange, if_true, writesVault, Function.update_self,
      Change.apply, hchanged, writeVaultAtomically, confirmsChange,
    Function.update_idem]

theorem exec_ends (hp : (lock.process p).phase = .holding) :
    exec (step crates) [.ends p] ⟨lock, file, sessions, creations, reports⟩ =
      ⟨lock, file, Function.update sessions p .ended, creations, reports⟩ := by
  simp only [exec_cons, exec_nil, step, configure, State.enter, hp]

/-- Only an event of the lock changes it. -/
theorem lock_step {event : Event} (hevent : ∀ other, event ≠ .lock other) (s : State) :
    (step crates event s).1.lock = s.lock := by
  have hconfigure : ∀ (p : Nat) (run : Session → State), (∀ session, (run session).lock = s.lock) →
      (configure s p run).lock = s.lock := by
    intro p run hrun
    unfold configure
    split
    · exact hrun _
    · rfl
  have hwrite : ∀ (s : State) (p : Nat) (vault : VaultFile) (next : Session) (writeEnd : WriteEnd),
      (writeVaultAtomically crates s p vault next writeEnd).lock = s.lock := by
    intro s p vault next writeEnd
    cases writeEnd <;> rfl
  cases event with
  | lock other => exact absurd rfl (hevent other)
  | looks p =>
      refine hconfigure p _ fun session => ?_
      unfold vaultFileExistsOrConflicts
      split <;> rfl
  | reads p =>
      refine hconfigure p _ fun session => ?_
      unfold readsVault
      split
      · split <;> rfl
      · rfl
  | unlocks p password =>
      refine hconfigure p _ fun session => ?_
      unfold unlocksVault
      split <;> rfl
  | creates p password params now draws =>
      refine hconfigure p _ fun session => ?_
      unfold createsVault
      split
      · split <;> rfl
      · rfl
  | changes p change =>
      refine hconfigure p _ fun session => ?_
      unfold beginsChange
      split <;> rfl
  | writes p writeEnd =>
      refine hconfigure p _ fun session => ?_
      unfold writesVault
      split
      · refine (hwrite _ p _ _ writeEnd).trans ?_
        cases writeEnd <;> rfl
      · split
        · exact hwrite s p _ _ writeEnd
        · rfl
      · rfl
  | confirms p =>
      refine hconfigure p _ fun session => ?_
      unfold confirmsChange
      split
      · rfl
      · split <;> rfl
      · rfl
  | ends p => exact hconfigure p _ fun _ => rfl

/-- A session whose lock file is at the path meets the guard, as long as no one touches the lock. -/
theorem meets_sessions (events : List Event)
    (hevents : ∀ event ∈ events, ∀ other, event ≠ .lock other) {s : State}
    (howner : ∀ p writeEnd,
      Event.writes p writeEnd ∈ events → s.lock.path = (s.lock.process p).created) :
    Meets (fun event s => Guarded s event) (step crates) events s := by
  induction events generalizing s with
  | nil => trivial
  | cons event events ih =>
      rw [List.forall_mem_cons] at hevents
      refine ⟨?_, ih hevents.2 ?_⟩
      · cases event with
        | writes p writeEnd =>
            cases writeEnd with
            | refused => trivial
            | done => exact howner p _ List.mem_cons_self
            | replaced => exact howner p _ List.mem_cons_self
        | lock | looks | reads | unlocks | creates | changes | confirms | ends => trivial
      · intro p writeEnd hwrites
        rw [lock_step hevents.1]
        exact howner p writeEnd (List.mem_cons_of_mem event hwrites)

theorem meets_lock (events : List LocalLockModel.Event) {s : State} :
    Meets (fun event s => Guarded s event) (step crates) (events.map .lock) s := by
  induction events generalizing s with
  | nil => trivial
  | cons event events ih => exact ⟨trivial, ih⟩

def afterLock (events : List LocalLockModel.Event) (lock : LocalLockModel.State) : LocalLockModel.State :=
  exec (LocalLockModel.step fun _ => vaultLockStaleAfter) events lock

def firstLock : List LocalLockModel.Event :=
  [.acquires 0, .proceeds 0 true, .proceeds 0 true, .proceeds 0 true, .proceeds 0 true]

/-- Process 0 lets go of the lock, and process 1 takes it. -/
def secondLock : List LocalLockModel.Event :=
  [.releases 0, .beats 0 true] ++ List.replicate 6 (.proceeds 0 true) ++ [.acquires 1] ++
    List.replicate 4 (.proceeds 1 true)

def firstHeld : LocalLockModel.State := afterLock firstLock (LocalLockModel.start 5000000000 none)

def secondHeld : LocalLockModel.State := afterLock secondLock firstHeld

theorem firstHeld_holding :
    (firstHeld.process 0).phase = .holding ∧ ensureVaultLockStillOwned (firstHeld.process 0) = true ∧
    firstHeld.path = (firstHeld.process 0).created := by
  decide +kernel

theorem secondHeld_holding :
    (secondHeld.process 1).phase = .holding ∧ ensureVaultLockStillOwned (secondHeld.process 1) = true ∧
    secondHeld.path = (secondHeld.process 1).created := by
  decide +kernel

theorem plain_stored : ∃ vault keyset changed,
    VaultFile.new plainCrates [112] PasswordSealedKey.interactiveDefault (.ok 0) zeroDraws = .ok vault ∧
      unlock plainCrates vault [112] = .ok keyset ∧
        vault.setEncryptedValue plainCrates keyset (nameOf 0) [1] (.ok 0) (.ok 0) zeros = .ok changed ∧
          (utf8 changed.vaultId).length = 22 ∧
            (fileBytes plainCrates changed).length ≤ maxVaultFileBytes := by
  have hstored : ∃ changed, (do
      let vault ← VaultFile.new plainCrates [112] PasswordSealedKey.interactiveDefault (.ok 0) zeroDraws
      let keyset ← unlock plainCrates vault [112]
      vault.setEncryptedValue plainCrates keyset (nameOf 0) [1] (.ok 0) (.ok 0) zeros) = .ok changed ∧
        decide ((utf8 changed.vaultId).length = 22 ∧
          (fileBytes plainCrates changed).length ≤ maxVaultFileBytes) = true :=
    exists_of_any (by decide +kernel)
  obtain ⟨changed, hstored, hprops⟩ := hstored
  obtain ⟨vault, hnew, hstored⟩ := bind_eq_ok.1 hstored
  obtain ⟨keyset, hunlock, hset⟩ := bind_eq_ok.1 hstored
  exact ⟨vault, keyset, changed, hnew, hunlock, hset, of_decide_eq_true hprops⟩

def firstSession : List Event := makes 0 ++ (stores 0 (nameOf 0) [1] ++ [.ends 0])

def secondSession : List Event := opens 1 ++ stores 1 (nameOf 1) [2]

/-- Process 0 makes the vault and stores a value, and then process 1 stores another. -/
def inTurn : List Event :=
  firstLock.map .lock ++ (firstSession ++ (secondLock.map .lock ++ secondSession))

/-- The second value is stored beside the first. -/
theorem no_lost_update_in_turn : ∃ report other,
    (exec (step plainCrates) inTurn (start 5000000000 none none)).reports = [report, other] ∧
      Truthful plainCrates report ∧ Truthful plainCrates other ∧
        other.previous = some report.written ∧
        (exec (step plainCrates) inTurn (start 5000000000 none none)).creations = [none] := by
  obtain ⟨vault, keyset, changed, hnew, hunlock, hset, hid, hlength⟩ := plain_stored
  obtain ⟨derived, hcreated⟩ := sound_new plainCrates_faithful hnew
  obtain rfl : derived = keyset := Except.ok.inj (hcreated.unlocks.symm.trans hunlock)
  have hsound := hcreated.sets plainCrates_faithful hset
  have hread := readVault_fileBytes plainCrates_faithful hsound.valid
  rw [if_neg (Nat.not_lt.2 hlength)] at hread
  obtain ⟨key, hkey⟩ := latestKey_of_unlock hunlock
  obtain ⟨last, entry, hlast, -⟩ :=
    plain_sets (nameOf 1) [2] hkey hid (by decide) (by decide)
  obtain ⟨hp, howned, howner⟩ := firstHeld_holding
  obtain ⟨hq, howned', howner'⟩ := secondHeld_holding
  have hfirst : exec (step plainCrates) (firstLock.map .lock) (start 5000000000 none none) =
      ⟨firstHeld, none, fun _ => .locking, [], []⟩ := exec_lock firstLock (by simp [firstLock])
  have hsession : ∃ sessions report, sessions 0 = .ended ∧ sessions 1 = .locking ∧
      report.written = fileBytes plainCrates changed ∧
      exec (step plainCrates) firstSession ⟨firstHeld, none, fun _ => .locking, [], []⟩ =
        ⟨firstHeld, some (fileBytes plainCrates changed), sessions, [none], [report]⟩ := by
    rw [firstSession, exec_append, exec_makes hp howned hnew hunlock rfl, exec_append,
      exec_stores hp howned (Function.update_self ..) hset, exec_ends hp]
    exact ⟨_, _, Function.update_self .., rfl, rfl, rfl⟩
  obtain ⟨sessions, report, hended, hlocking, hwritten, hsession⟩ := hsession
  have hsecond : exec (step plainCrates) (secondLock.map .lock)
      ⟨firstHeld, some (fileBytes plainCrates changed), sessions, [none], [report]⟩ =
        ⟨secondHeld, some (fileBytes plainCrates changed), sessions, [none], [report]⟩ := by
    refine exec_lock secondLock fun p hp => ?_
    have hzero : p = 0 := by simpa [secondLock] using hp
    rw [hzero]
    exact hended
  have hguard : Meets (fun event s => Guarded s event) (step plainCrates) inTurn
      (start 5000000000 none none) := by
    rw [inTurn, meets_append, hfirst, meets_append, hsession, meets_append, hsecond]
    refine ⟨meets_lock _, meets_sessions _ ?_ ?_, meets_lock _, meets_sessions _ ?_ ?_⟩
    · simp [firstSession, makes, stores]
    · intro p writeEnd hwrites
      have hzero : p = 0 ∧ writeEnd = .done := by
        simpa [firstSession, makes, stores] using hwrites
      rw [hzero.1]
      exact howner
    · simp [secondSession, opens, stores]
    · intro p writeEnd hwrites
      have hone : p = 1 ∧ writeEnd = .done := by
        simpa [secondSession, opens, stores] using hwrites
      rw [hone.1]
      exact howner'
  have hall := (no_lost_update plainCrates plainCrates_faithful.fromSlice 5000000000 none none _ hguard).1
  rw [inTurn, exec_append, hfirst, exec_append, hsession, exec_append, hsecond, secondSession, exec_append,
    exec_opens hq howned' hread hsound.unlocks hlocking,
    exec_stores hq howned' (Function.update_self ..) hlast] at hall ⊢
  exact ⟨report, _, rfl, hall report List.mem_cons_self,
    hall _ (List.mem_append_right _ List.mem_cons_self), congrArg some hwritten.symm, rfl⟩

/-- Process 0 has taken the lock, and is paused for so long that process 1 takes it over. -/
def pausedLock : List LocalLockModel.Event :=
  firstLock ++ [.clock 9000000000, .acquires 1] ++ List.replicate 10 (.proceeds 1 true)

/-- Process 0 makes the vault, process 1 opens it and stores a value, and then process 0
stores another value. -/
def bothStore : List Event :=
  pausedLock.map .lock ++ (makes 0 ++ (opens 1 ++ (stores 1 (nameOf 0) [1] ++ stores 0 (nameOf 1) [2])))

def paused : LocalLockModel.State := afterLock pausedLock (LocalLockModel.start 5000000000 none)

theorem paused_holding : ∀ p < 2,
    (paused.process p).phase = .holding ∧ ensureVaultLockStillOwned (paused.process p) = true := by
  decide +kernel

/-- Process 0 reports its value as stored, and has written a vault without the value that
process 1 has stored. -/
theorem stored_value_lost :
    ¬∀ (crates : Crates), crates.Faithful → ∀ (now : Nat) (lockFile : Option LocalLockModel.File)
    (file : Option Bytes) (events : List Event),
    ∀ report ∈ (exec (step crates) events (start now lockFile file)).reports, Truthful crates report := by
  intro h
  obtain ⟨vault, hnew, hid, hempty, hlength⟩ := plain_new
  obtain ⟨keyset, hsound⟩ := sound_new plainCrates_faithful hnew
  obtain ⟨key, hkey⟩ := latestKey_of_unlock hsound.unlocks
  have hread := readVault_fileBytes plainCrates_faithful hsound.valid
  rw [if_neg (Nat.not_lt.2 hlength)] at hread
  have hname : ∀ n < 2, (utf8 (nameOf n).text).length ≤ 100 := by
    decide
  obtain ⟨second, entry, hsecond, hsecond_id, hsecond_entries, -⟩ :=
    plain_sets (nameOf 0) [1] hkey hid (hname 0 (by decide)) (by decide)
  obtain ⟨first, entry', hfirst, -, hfirst_entries, -⟩ :=
    plain_sets (nameOf 1) [2] hkey hid (hname 1 (by decide)) (by decide)
  obtain ⟨both, entry'', hboth, -, hboth_entries, -⟩ :=
    plain_sets (nameOf 1) [2] hkey (hsecond_id.symm ▸ hid) (hname 1 (by decide)) (by decide)
  obtain ⟨hp, howned⟩ := paused_holding 0 (by decide)
  obtain ⟨hq, howned'⟩ := paused_holding 1 (by decide)
  have hlock : exec (step plainCrates) (pausedLock.map .lock) (start 5000000000 none none) =
      ⟨paused, none, fun _ => .locking, [], []⟩ := exec_lock pausedLock (by simp [pausedLock, firstLock])
  have hreport := h plainCrates plainCrates_faithful 5000000000 none none bothStore
  rw [bothStore, exec_append, hlock, exec_append,
    exec_makes hp howned hnew hsound.unlocks rfl, exec_append,
    exec_opens hq howned' hread hsound.unlocks rfl, exec_append,
      exec_stores hq howned' (Function.update_self ..) hsecond,
    exec_stores hp howned rfl hfirst] at hreport
  obtain ⟨before, after, hbefore, hafter, hwritten⟩ :=
    hreport _ (List.mem_append_right _ (List.mem_singleton_self _))
  -- the vault before the write was that of process 1
  have hsame : before = second :=
    Option.some.inj (hbefore.symm.trans (plainCrates_faithful.fromSlice second))
  have hafter' : after = both := by
    rw [hsame] at hafter
    exact Except.ok.inj (hafter.symm.trans hboth)
  have henv := congrArg VaultFile.encryptedEnv (fileBytes_inj plainCrates_faithful hwritten)
  rw [hafter', hboth_entries, hsecond_entries, hfirst_entries] at henv
  have hget := congrArg (fun env => env.get (nameOf 0).text) henv
  rw [get_insert, get_insert, get_insert, if_neg (by decide), if_neg (by decide), if_pos rfl,
    EncryptedEnv.get, hempty] at hget
  cases hget

end Runs

end Paranoid.VaultConcurrency
