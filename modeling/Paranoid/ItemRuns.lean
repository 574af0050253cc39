import Paranoid.EnvelopeSealing
import Paranoid.ItemBulk
import Paranoid.VaultReopening

namespace Paranoid.ItemRuns

open CryptoPrimitives EnvelopeModel ItemModel TypedItems ItemRefinement ItemMutations ItemBulk KvModel KvStore
open ExpiringMap (Map)
open KvRuns (State cleaned)
open Postgres (bind_eq_ok mapError_eq_ok)

variable {T C E : Type}

section Codecs

/-- What is documented of an encoding: a value that it encodes is decoded again. -/
def Plaintext.RoundTrips (plaintext : Plaintext T C) : Prop :=
  ∀ value bytes, plaintext.toPlaintextBytes value = .ok bytes →
    plaintext.fromPlaintextBytes bytes = .ok value

structure Ciphers (C : Type) where
  kdf : Kdf
  xchacha : XChaCha20Poly1305
  aesGcmSiv : Aes256GcmSiv
  lift : CryptoError → C
  xchacha_correct : xchacha.Correct
  aesGcmSiv_correct : aesGcmSiv.Correct

/-- A call whose getter, where it answers, hands out this keyset. -/
def Ciphers.keysetCipher (ciphers : Ciphers C) (keyset : Keyset) (getKeyset : Except C Unit)
    (fillRandom : Nat → FillRandom CryptoError) : Cipher C where
  getKeyset := getKeyset
  encrypt n plaintext associatedData :=
    (encryptBytesWithAssociatedData ciphers.kdf ciphers.xchacha ciphers.aesGcmSiv keyset plaintext
      associatedData (fillRandom n)).mapError ciphers.lift
  decrypt envelope associatedData :=
    (decryptBytesWithAssociatedData ciphers.kdf ciphers.xchacha ciphers.aesGcmSiv keyset envelope
      associatedData).mapError ciphers.lift

/-- The calls of a plain item, or of one that is encrypted with a keyset. -/
def Ciphers.Calls (ciphers : Ciphers C) (keyset? : Option Keyset) (codec : ItemCodec C) : Prop :=
  match keyset? with
  | none => codec = .plain
  | some keyset => ∃ getKeyset fillRandom, codec =
      .encrypted (ciphers.keysetCipher keyset getKeyset fillRandom)

/-- What is encrypted for a key is decrypted for that key, by any call. -/
theorem lawful_calls {plaintext : Plaintext T C} (hround : Plaintext.RoundTrips plaintext)
    (ciphers : Ciphers C) (keyset? : Option Keyset) : Lawful plaintext (ciphers.Calls keyset?) := by
  cases keyset? with
  | none =>
      rintro _ _ rfl rfl - _ key value bytes hencode
      exact hround value bytes hencode
  | some keyset =>
      rintro _ _ ⟨_, fillRandom, rfl⟩ ⟨getKeyset, fillRandom', rfl⟩ _ n key value bytes hencode
      obtain ⟨-, -, hencode⟩ := bind_eq_ok.1 hencode
      obtain ⟨plaintextBytes, hplaintext, hencode⟩ := bind_eq_ok.1 hencode
      have hdecrypt := EnvelopeSealing.decrypt_encrypt ciphers.xchacha_correct ciphers.aesGcmSiv_correct
        (mapError_eq_ok.1 hencode)
      have hcipher : (ciphers.keysetCipher keyset getKeyset fillRandom').decrypt bytes
          (itemAssociatedData key) = .ok plaintextBytes := mapError_eq_ok.2 hdecrypt
      rw [decodeUnlocked, decodeEncryptedValueForKey, hcipher]
      exact hround value plaintextBytes hplaintext

end Codecs

/-- Plain and encrypted items that share a table, each with values of its own type and a prefix of
its own. -/
structure Items (C : Type) where
  Name : Type
  Value : Name → Type
  plaintext : ∀ name, Plaintext (Value name) C
  ciphers : Ciphers C
  keyset? : Name → Option Keyset
  keyPrefix : Name → KeyPrefix
  roundTrips : ∀ name, Plaintext.RoundTrips (plaintext name)
  apart : ∀ name other, name ≠ other → ∀ key, (keyPrefix name).containsKey key →
    (keyPrefix other).containsKey key = false

def Items.calls (items : Items C) (name : items.Name) : ItemCodec C → Prop :=
  items.ciphers.Calls (items.keyset? name)

theorem Items.lawful (items : Items C) (name : items.Name) :
    Lawful (items.plaintext name) (items.calls name) :=
  lawful_calls (items.roundTrips name) items.ciphers (items.keyset? name)

variable (items : Items C)

inductive Input (E : Type)
  | call (elapsed delay secondDelay : Nat) (name : items.Name)
      (codec : {codec : ItemCodec C // items.calls name codec})
        (operation : ItemOperation (items.Value name) E)
  | deleteExpiredKeysOnce (elapsed batchSize : Nat)

/-- A reply of an item. -/
structure Answer (E : Type) where
  name : items.Name
  result : Except E (ItemReply (items.Value name))

abbrev Maps : Type := ∀ name, Map Key (items.Value name) Int

variable {items} (lift : ItemError C → E)

section Runs

/-- A call that fails leaves the table as it was. -/
def next (s : State) : Input items E → Option (Answer items E) × State
  | .call elapsed delay secondDelay name codec operation =>
      let times : Times := ⟨s.now + elapsed, delay, secondDelay⟩
      match runItem lift (items.plaintext name) codec (items.keyPrefix name) times operation s.table with
      | .error e => (some ⟨name, .error e⟩, ⟨times.last, s.table⟩)
      | .ok (reply, t) => (some ⟨name, .ok reply⟩, ⟨times.last, t⟩)
  | .deleteExpiredKeysOnce elapsed batchSize =>
      (none, ⟨s.now + elapsed, cleaned (s.now + elapsed) s.table batchSize⟩)

/-- The answers to the calls of a run, and the state after it. -/
def answers : State → List (Input items E) → List (Answer items E) × State
  | s, [] => ([], s)
  | s, input :: inputs =>
      let (answer, s) := next lift s input
      let (rest, s) := answers s inputs
      (answer.toList ++ rest, s)

variable [DecidableEq items.Name]

/-- A run of the calls on expiring maps of values, one for each item, that share nothing and
that cleanup does not touch. -/
inductive Answers : Int → Maps items → List (Input items E) → List (Answer items E) → Maps items → Prop
  | nil (now : Int) (M : Maps items) : Answers now M [] [] M
  | refused {now : Int} {M M' : Maps items} {elapsed delay secondDelay : Nat} {name : items.Name}
      {codec : {codec : ItemCodec C // items.calls name codec}}
      {operation : ItemOperation (items.Value name) E} {e : E} {inputs : List (Input items E)}
      {rest : List (Answer items E)}
      (h : Performs lift (items.plaintext name) codec (items.keyPrefix name)
        ⟨now + elapsed, delay, secondDelay⟩ (M name) operation (.error e))
      (hrest : Answers (now + elapsed + delay + secondDelay) M inputs rest M') :
      Answers now M (.call elapsed delay secondDelay name codec operation :: inputs)
        (⟨name, .error e⟩ :: rest) M'
  | performed {now : Int} {M M' : Maps items} {elapsed delay secondDelay : Nat} {name : items.Name}
      {codec : {codec : ItemCodec C // items.calls name codec}}
      {operation : ItemOperation (items.Value name) E} {reply : ItemReply (items.Value name)}
      {m : Map Key (items.Value name) Int} {inputs : List (Input items E)} {rest : List (Answer items E)}
      (h : Performs lift (items.plaintext name) codec (items.keyPrefix name)
        ⟨now + elapsed, delay, secondDelay⟩ (M name) operation (.ok (reply, m)))
      (hrest : Answers (now + elapsed + delay + secondDelay) (Function.update M name m) inputs rest M') :
      Answers now M (.call elapsed delay secondDelay name codec operation :: inputs)
        (⟨name, .ok reply⟩ :: rest) M'
  | cleaned {now : Int} {M M' : Maps items} {elapsed batchSize : Nat} {inputs : List (Input items E)}
      {rest : List (Answer items E)} (hrest : Answers (now + elapsed) M inputs rest M') :
      Answers now M (.deleteExpiredKeysOnce elapsed batchSize :: inputs) rest M'

end Runs

/-- Each item finds its map in the table. -/
def RepresentsAll (now : Int) (t : Table) (M : Maps items) : Prop :=
  ∀ name, Represents (items.plaintext name) (items.calls name) (items.keyPrefix name) now t (M name)

/-- A key of no item. -/
def Foreign (items : Items C) (key : Key) : Prop := ∀ name, (items.keyPrefix name).containsKey key = false

variable {lift} {now : Int} {t : Table} {M : Maps items}

theorem RepresentsAll.later {later : Int} (hM : RepresentsAll now t M) (hlater : now ≤ later) :
    RepresentsAll later t M :=
  fun name => (hM name).later hlater

theorem view_cleaned {later : Int} (hlater : now ≤ later) (batchSize : Nat) :
    (cleaned now t batchSize).view later = t.view later :=
  KvRuns.agree_cleaned (m := KvRuns.stored t) (fun _ (_ : now ≤ _) => rfl) batchSize later hlater

theorem now_le_answers (lift : ItemError C → E) (inputs : List (Input items E)) (s : State) :
    s.now ≤ (answers lift s inputs).2.now := by
  induction inputs generalizing s with
  | nil => exact le_rfl
  | cons input inputs ih =>
      apply le_trans _ (ih (next lift s input).2)
      cases input with
      | deleteExpiredKeysOnce elapsed batchSize =>
          change s.now ≤ s.now + elapsed
          omega
      | call elapsed delay secondDelay name codec operation =>
          have hlast : s.now ≤ s.now + elapsed + delay + secondDelay := by omega
          simp only [next]
          split <;> exact hlast

theorem representsAll_cleaned (hM : RepresentsAll now t M) (batchSize : Nat) :
    RepresentsAll now (cleaned now t batchSize) M := by
  intro name key hkey
  rw [view_cleaned le_rfl]
  exact hM name key hkey

/-- A call on one item leaves the others as they were. -/
theorem representsAll_update [DecidableEq items.Name] {times : Times} {t' : Table} {name : items.Name}
    {m : Map Key (items.Value name) Int} (hM : RepresentsAll times.now t M)
    (hm : Represents (items.plaintext name) (items.calls name) (items.keyPrefix name) times.last t' m)
    (hframe : ∀ key, (items.keyPrefix name).containsKey key = false →
      t'.view times.last key = t.view times.last key) :
    RepresentsAll times.last t' (Function.update M name m) := by
  intro other
  by_cases hother : other = name
  · subst hother
    rw [Function.update_self]
    exact hm
  · rw [Function.update_of_ne hother]
    intro key hkey
    rw [hframe key (items.apart other name hother key hkey)]
    exact (hM other).later times.now_le_last key hkey

/-- Every call of an item, on a table that represents its map. -/
theorem run_refines (lift : ItemError C → E) {plaintext : Plaintext T C}
    {calls : ItemCodec C → Prop} {codec : ItemCodec C}
    {keyPrefix : KeyPrefix} {times : Times} {m : Map Key T Int} (hlawful : Lawful plaintext calls)
    (hcodec : calls codec) (hm : Represents plaintext calls keyPrefix times.now t m)
    (operation : ItemOperation T E) :
    Refines lift plaintext calls codec keyPrefix times m operation t
      (runItem lift plaintext codec keyPrefix times operation t) := by
  cases operation with
  | get keyParts => exact refines_get hm hcodec keyParts
  | getAndReturnDatabaseTimestamp keyParts =>
      exact refines_getAndReturnDatabaseTimestamp hm hcodec keyParts
  | getOrFallback keyParts fallback => exact refines_getOrFallback hm hcodec keyParts fallback
  | getMulti keyPartsList => exact refines_getMulti hm hcodec keyPartsList
  | checkExists keyParts => exact refines_checkExists hm keyParts
  | count => exact refines_count hm
  | scan afterKeySuffix limit => exact refines_scan hm hcodec afterKeySuffix limit
  | scanKeySuffixes afterKeySuffix limit => exact refines_scanKeySuffixes hm afterKeySuffix limit
  | set keyParts value ttl => exact refines_set hlawful hm hcodec keyParts value ttl
  | setAndReturnDatabaseTimestamp keyParts value ttl =>
      exact refines_setAndReturnDatabaseTimestamp hlawful hm hcodec keyParts value ttl
  | setIfNotExists keyParts value ttl => exact refines_setIfNotExists hlawful hm hcodec keyParts value ttl
  | setIfNotExistsAndReturnDatabaseTimestamp keyParts value ttl =>
      exact refines_setIfNotExistsAndReturnDatabaseTimestamp hlawful hm hcodec keyParts value ttl
  | setMulti keyPartsList values ttl => exact refines_setMulti hlawful hm hcodec keyPartsList values ttl
  | delete keyParts => exact refines_delete hm keyParts
  | touch keyParts => exact refines_touch hm keyParts
  | setTtl keyParts ttl => exact refines_setTtl hm keyParts ttl
  | expire keyParts => exact refines_expire hm keyParts
  | deleteEntireNamespaceAtomically => exact refines_deleteEntireNamespaceAtomically hm
  | acquireSlot candidateSuffixes value ttl pick =>
      exact refines_acquireSlot hlawful hm hcodec candidateSuffixes value ttl pick
  | getOrInit keyParts initialValue ttl =>
      exact refines_getOrInit hlawful hm hcodec keyParts initialValue ttl
  | mutateAtomically keyParts decideMutation =>
      exact refines_mutateAtomically hlawful hm hcodec keyParts decideMutation
  | mutateLiveAtomically keyParts decideMutation =>
      exact refines_mutateLiveAtomically hlawful hm hcodec keyParts decideMutation
  | mutateLiveOrInsertInitialValueAtomically keyParts initializeValue decideMutation =>
      exact refines_mutateLiveOrInsertInitialValueAtomically hlawful hm hcodec keyParts initializeValue
        decideMutation

variable [DecidableEq items.Name]

/-- Every run of calls on plain and encrypted items of one table, with cleanup anywhere in it, is one of
typed expiring maps that share nothing, and leaves their values and the rows of other keys. -/
theorem items_refine_expiring_maps (lift : ItemError C → E) (inputs : List (Input items E)) (s : State)
    (M : Maps items) (hM : RepresentsAll s.now s.table M) :
    ∃ M', Answers lift s.now M inputs (answers lift s inputs).1 M' ∧
      RepresentsAll (answers lift s inputs).2.now (answers lift s inputs).2.table M' ∧
      ∀ key, Foreign items key → ∀ later, (answers lift s inputs).2.now ≤ later →
        (answers lift s inputs).2.table.view later key = s.table.view later key := by
  induction inputs generalizing s M with
  | nil => exact ⟨M, .nil s.now M, hM, fun _ _ _ _ => rfl⟩
  | cons input inputs ih =>
      cases input with
      | deleteExpiredKeysOnce elapsed batchSize =>
          have hM' := representsAll_cleaned (hM.later (show s.now ≤ s.now + elapsed by omega)) batchSize
          obtain ⟨M', hanswers, hfinal, hforeign⟩ := ih ⟨s.now + elapsed, _⟩ M hM'
          refine ⟨M', .cleaned hanswers, hfinal, fun key hkey later hlater => ?_⟩
          have hlater' : s.now + elapsed ≤ later := (now_le_answers lift inputs _).trans hlater
          rw [← view_cleaned (t := s.table) hlater' batchSize]
          exact hforeign key hkey later hlater
      | call elapsed delay secondDelay name codec operation =>
          let times : Times := ⟨s.now + elapsed, delay, secondDelay⟩
          have hM' : RepresentsAll times.now s.table M := hM.later (show s.now ≤ s.now + elapsed by omega)
          have hrefines := run_refines lift (items.lawful name) codec.property (hM' name) operation
          cases hrun : runItem lift (items.plaintext name) codec (items.keyPrefix name) times operation
              s.table with
          | error e =>
              rw [hrun] at hrefines
              obtain ⟨M', hanswers, hrest⟩ := ih ⟨times.last, s.table⟩ M (hM'.later times.now_le_last)
              refine ⟨M', ?_, ?_⟩
              · simp only [answers, next, times, hrun]
                exact .refused hrefines hanswers
              · simp only [answers, next, times, hrun]
                exact hrest
          | ok written =>
              rw [hrun] at hrefines
              obtain ⟨m, hperforms, hm, hframe⟩ := hrefines
              have hupdated := representsAll_update hM' hm fun key hkey => hframe key hkey _ le_rfl
              obtain ⟨M', hanswers, hfinal, hforeign⟩ := ih ⟨times.last, written.2⟩ _ hupdated
              refine ⟨M', ?_, ?_, ?_⟩
              · simp only [answers, next, times, hrun]
                exact .performed hperforms hanswers
              · simp only [answers, next, times, hrun]
                exact hfinal
              · simp only [answers, next, times, hrun]
                intro key hkey later hlater
                rw [hforeign key hkey later hlater]
                exact hframe key (hkey name) later ((now_le_answers lift inputs _).trans hlater)

section Shared

open VaultReopening (length_zeros plainAead plainAead_correct zeros)

def zeroKey : Key32 := ⟨List.replicate keySize 0, length_zeros keySize⟩

def plainCiphers : Ciphers CryptoError where
  kdf _ := zeroKey
  xchacha := plainAead xchacha20Poly1305NonceSize
  aesGcmSiv := plainAead aes256GcmSivNonceSize
  lift := id
  xchacha_correct := plainAead_correct _
  aesGcmSiv_correct := plainAead_correct _

def bytesAsThey : Plaintext Bytes CryptoError := ⟨.ok, .ok⟩

def secretsKeyset : Keyset := ⟨[0x61], [⟨zeroKey, zeroKey⟩]⟩

def users : KeyPrefix := ⟨"user::", by decide⟩

def tokens : KeyPrefix := ⟨"token::", by decide⟩

theorem not_tokens_of_users {key : Key} (h : users.containsKey key) : tokens.containsKey key = false := by
  change List.isPrefixOf ['u', 's', 'e', 'r', ':', ':'] key.text.toList = true at h
  change List.isPrefixOf ['t', 'o', 'k', 'e', 'n', ':', ':'] key.text.toList = false
  cases htext : key.text.toList with
  | nil => rfl
  | cons c rest =>
      rw [htext, List.isPrefixOf, Bool.and_eq_true, beq_iff_eq] at h
      rw [← h.1]
      rfl

theorem apart_users_tokens (name other : Bool) (hne : name ≠ other) (key : Key)
    (h : (if name then users else tokens).containsKey key) :
    (if other then users else tokens).containsKey key = false := by
  cases name with
  | true =>
      obtain rfl : other = false := by simpa using hne.symm
      exact not_tokens_of_users h
  | false =>
      obtain rfl : other = true := by simpa using hne.symm
      rw [← Bool.not_eq_true]
      intro husers
      have htokens := not_tokens_of_users husers
      rw [show tokens.containsKey key = true from h] at htokens
      cases htokens

/-- Plain users and encrypted tokens. -/
def usersAndTokens : Items CryptoError where
  Name := Bool
  Value _ := Bytes
  plaintext _ := bytesAsThey
  ciphers := plainCiphers
  keyset? name := if name then none else some secretsKeyset
  keyPrefix name := if name then users else tokens
  roundTrips _ _ _ h := h.symm
  apart := apart_users_tokens

instance : DecidableEq usersAndTokens.Name := inferInstanceAs (DecidableEq Bool)

def plainCall : {codec : ItemCodec CryptoError // usersAndTokens.calls true codec} := ⟨.plain, rfl⟩

def encryptedCall : {codec : ItemCodec CryptoError // usersAndTokens.calls false codec} :=
  ⟨.encrypted (plainCiphers.keysetCipher secretsKeyset (.ok ()) fun _ => zeros),
    .ok (), fun _ => zeros, rfl⟩

def shortestTtl : KvAtomic.Ttl :=
  ⟨some KvAtomic.minKvTtl, KvAtomic.minimum_minKvTtl, KvAtomic.fits_minKvTtl⟩

def sharedRun : List (Input usersAndTokens (ItemError CryptoError)) :=
  [.call 1 0 0 true plainCall (.set ["ada"] [1] .noExpiration),
    .call 1 0 0 false encryptedCall (.setMulti [["ada"], ["grace"]] [[2], [3]] .noExpiration),
    .deleteExpiredKeysOnce 1 10,
    .call 1 1 1 false encryptedCall (.acquireSlot ["ada", "hedy"] [4] shortestTtl 0),
    .call 1 0 0 false encryptedCall .deleteEntireNamespaceAtomically,
    .call 1 0 0 true plainCall (.get ["ada"])]

def noValues : Maps usersAndTokens := fun _ => ⟨fun _ => none, by simp⟩

theorem items_refine_expiring_maps_shared :
    ∃ M', Answers id 0 noValues sharedRun (answers id ⟨0, .empty⟩ sharedRun).1 M' ∧
      RepresentsAll (answers id ⟨0, .empty⟩ sharedRun).2.now (answers id ⟨0, .empty⟩ sharedRun).2.table M' ∧
      ∀ key, Foreign usersAndTokens key → ∀ later, (answers id ⟨0, .empty⟩ sharedRun).2.now ≤ later →
        (answers id ⟨0, .empty⟩ sharedRun).2.table.view later key = Table.empty.view later key :=
  items_refine_expiring_maps id sharedRun ⟨0, .empty⟩ noValues fun _ _ _ => .none

end Shared

end Paranoid.ItemRuns
