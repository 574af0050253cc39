import Paranoid.ItemRefinement

namespace Paranoid.ItemMutations

open ItemModel TypedItems ItemRefinement KvAtomic KvKeys KvModel KvStatements KvStore Postgres
open ExpiringMap (Entry live Map)
open KvMutation (decidedEntry mutatedEntry)

variable {T C E : Type}

/-- Two results that fail alike, or succeed with values that are related. -/
inductive Follows {ε α β : Type} (R : α → β → Prop) : Except ε α → Except ε β → Prop
  | error (e : ε) : Follows R (.error e) (.error e)
  | ok {a : α} {b : β} (h : R a b) : Follows R (.ok a) (.ok b)

section Follows

variable {ε δ α β γ ζ : Type} {R : α → β → Prop} {S : γ → ζ → Prop} {x : Except ε α} {y : Except ε β}
  {f : α → Except ε γ} {g : β → Except ε ζ}

theorem Follows.bind (h : Follows R x y) (hnext : ∀ a b, R a b → Follows S (f a) (g b)) :
    Follows S (x >>= f) (y >>= g) := by
  cases h with
  | error e => exact .error e
  | ok h => exact hnext _ _ h

theorem Follows.mapError (lift : ε → δ) (h : Follows R x y) :
    Follows R (x.mapError lift) (y.mapError lift) := by
  cases h with
  | error e => exact .error _
  | ok h => exact .ok h

theorem Follows.imp {R' : α → β → Prop} (h : Follows R x y) (himp : ∀ a b, R a b → R' a b) :
    Follows R' x y := by
  cases h with
  | error e => exact .error e
  | ok h => exact .ok (himp _ _ h)

@[simp] theorem follows_error {e : ε} : Follows R x (.error e) ↔ x = .error e := by
  constructor
  · rintro ⟨⟩
    rfl
  · rintro rfl
    exact .error e

@[simp] theorem follows_ok {b : β} : Follows R x (.ok b) ↔ ∃ a, x = .ok a ∧ R a b := by
  constructor
  · rintro ⟨⟩
    exact ⟨_, rfl, by assumption⟩
  · rintro ⟨a, rfl, h⟩
    exact .ok h

theorem follows_same (x : Except ε α) : Follows Eq x x := by
  cases x with
  | error e => exact .error e
  | ok a => exact .ok rfl

end Follows

variable {lift : ItemError C → E} {plaintext : Plaintext T C} {calls : ItemCodec C → Prop}
  {codec : ItemCodec C} {keyPrefix : KeyPrefix} {times : Times} {t : Table} {M : Map Key T Int} {key : Key}
  {stored : Option (Entry Bytes Int)} {cell : Option (Entry T Int)}

/-- A mutation of bytes that are read as the values of a mutation. -/
inductive Encodes (plaintext : Plaintext T C) (calls : ItemCodec C → Prop) (key : Key) :
    AtomicMutation Bytes → AtomicMutation T → Prop
  | keepExisting : Encodes plaintext calls key .keepExisting .keepExisting
  | setValue {bytes : Bytes} {value : T} (ttl : Ttl) (h : ReadsAs plaintext calls key bytes value) :
      Encodes plaintext calls key (.setValue bytes ttl) (.setValue value ttl)
  | setValuePreservingExpiration {bytes : Bytes} {value : T} (h : ReadsAs plaintext calls key bytes value) :
      Encodes plaintext calls key (.setValuePreservingExpiration bytes)
        (.setValuePreservingExpiration value)
  | delete : Encodes plaintext calls key .delete .delete

/-- A callback on bytes decides what one on values does. -/
abbrev Decides (plaintext : Plaintext T C) (calls : ItemCodec C → Prop) (key : Key) {κ : Type} :
    Except E (κ × AtomicMutation Bytes) → Except E (κ × AtomicMutation T) → Prop :=
  Follows fun encoded decided => encoded.1 = decided.1 ∧ Encodes plaintext calls key encoded.2 decided.2

theorem follows_encode (hlawful : Lawful plaintext calls) (hcodec : calls codec) (n : Nat) (key : Key)
    (value : T) :
    Follows (fun bytes _ => ReadsAs plaintext calls key bytes value)
      (encodeValueForKey plaintext codec n key value) (accepts plaintext codec n key value) := by
  rcases encode_cases hlawful hcodec n key value with
    ⟨e, hencode, haccepts⟩ | ⟨bytes, hencode, haccepts, hreads⟩
  · rw [hencode, haccepts]
    exact .error e
  · rw [hencode, haccepts]
    exact .ok hreads

theorem follows_encodeMutation (hlawful : Lawful plaintext calls) (hcodec : calls codec) (n : Nat)
    (key : Key) (mutation : AtomicMutation T) :
    Follows (fun encoded _ => Encodes plaintext calls key encoded mutation)
      (encodeAtomicMutationForKey plaintext codec n key mutation)
      (acceptsMutation plaintext codec n key mutation) := by
  cases mutation with
  | keepExisting => exact .ok .keepExisting
  | delete => exact .ok .delete
  | setValue value ttl =>
      rcases encode_cases hlawful hcodec n key value with
        ⟨e, hencode, haccepts⟩ | ⟨bytes, hencode, haccepts, hreads⟩
      · simp [encodeAtomicMutationForKey, acceptsMutation, hencode, haccepts]
      · simp [encodeAtomicMutationForKey, acceptsMutation, hencode, haccepts, Encodes.setValue ttl hreads]
  | setValuePreservingExpiration value =>
      rcases encode_cases hlawful hcodec n key value with
        ⟨e, hencode, haccepts⟩ | ⟨bytes, hencode, haccepts, hreads⟩
      · simp [encodeAtomicMutationForKey, acceptsMutation, hencode, haccepts]
      · simp [encodeAtomicMutationForKey, acceptsMutation, hencode, haccepts,
          Encodes.setValuePreservingExpiration hreads]

/-- What is written is shown as what is decided. -/
theorem follows_mutated {mutation : AtomicMutation T} {encoded : AtomicMutation Bytes}
    (hshows : Shows plaintext calls key stored cell)
    (hencodes : Encodes plaintext calls key encoded mutation)
    (now : Int) :
    Follows (fun written decided => written.1 = decided.1 ∧ Shows plaintext calls key written.2 decided.2)
      (mutatedEntry now stored encoded) (mutatedEntry now cell mutation) := by
  cases hencodes with
  | keepExisting =>
      apply Follows.ok
      exact ⟨by rw [hshows.isSome], hshows⟩
  | delete =>
      apply Follows.ok
      exact ⟨by rw [hshows.isSome], .none⟩
  | setValue ttl hreads =>
      apply (follows_same (query (expiresAtExpression now ttl.positiveMicroseconds))).bind
      rintro expiresAt _ rfl
      exact .ok ⟨rfl, .some hreads⟩
  | setValuePreservingExpiration hreads =>
      cases hshows with
      | none => exact .error _
      | some => exact .ok ⟨rfl, .some hreads⟩

theorem mutateKeyAtomically_onKey (now : Int) (delay : Nat) (t : Table) (key : Key) (lift : KvError → E)
    (decideMutation : AtomicMutationCurrent → Except E (AtomicMutation Bytes)) :
    match decidedEntry lift now delay decideMutation (t.view now key) with
    | .error e => KvStore.mutateKeyAtomically t key lift (fun _ => now) delay decideMutation = .error e
    | .ok (result, stored) => ∃ t',
        KvStore.mutateKeyAtomically t key lift (fun _ => now) delay decideMutation = .ok (result, t') ∧
          ∀ later, now ≤ later →
            t'.view later = Function.update (t.view later) key (live later stored) := by
  have hrun : KvRefinement.OnKey now t key _
      (KvOperations.run lift now delay (.mutateKeyAtomically key decideMutation) t) :=
    KvRefinement.onKey_run rfl
  rw [KvRefinement.OnKey, KvOperations.run] at hrun
  cases hdecided : decidedEntry lift now delay decideMutation (t.view now key) with
  | error e =>
      rw [hdecided] at hrun
      cases hmutate : KvStore.mutateKeyAtomically t key lift (fun _ => now) delay decideMutation with
      | error e' => simpa [hmutate] using hrun
      | ok mutated => simp [hmutate] at hrun
  | ok decided =>
      rw [hdecided] at hrun
      obtain ⟨t', heq, hview⟩ := hrun
      cases hmutate : KvStore.mutateKeyAtomically t key lift (fun _ => now) delay decideMutation with
      | error e' => simp [hmutate] at heq
      | ok mutated =>
          refine ⟨t', ?_, hview⟩
          simpa [hmutate, Prod.ext_iff] using heq

/-- An atomic mutation does to the live entry what its callback decides. -/
theorem affects_decided {κ : Type} {keyParts : List String}
    {decideMutation : Key → AtomicMutationCurrent → Except E (κ × AtomicMutation Bytes)}
    {decide : Option T → Int → Except E (κ × AtomicMutation T)}
    (reply : κ → AtomicMutationOutcome → ItemReply T)
    (hkey : keyFromParts keyPrefix keyParts = .ok key)
    (hshows : Shows plaintext calls key (t.view times.now key) cell)
    (hdecides : ∀ timestamp, Decides plaintext calls key
      (decideMutation key ⟨(t.view times.now key).map (·.value), timestamp⟩)
      (decide (cell.map (·.value)) timestamp)) :
    Affects plaintext calls times key t (decided lift times decide reply cell) (do
      let (captured, outcome, t) ← mutateCapturing lift keyPrefix times keyParts decideMutation t
      return (reply captured outcome, t)) := by
  have hmutate := mutateKeyAtomically_onKey times.now times.delay t key
    (fun error => lift (.store error)) fun current => (decideMutation key current).map Prod.snd
  rw [decidedEntry] at hmutate
  rw [decided, mutateCapturing, hkey]
  dsimp only [mapError_ok, ok_bind]
  cases htimestamp : query (kvTimestampMicros times.now) with
  | error error =>
      rw [htimestamp] at hmutate
      dsimp only [mapError_error, error_bind] at hmutate ⊢
      rw [hmutate]
      rfl
  | ok timestamp =>
      rw [htimestamp] at hmutate
      dsimp only [mapError_ok, ok_bind] at hmutate ⊢
      have hdecided := hdecides timestamp
      cases hdecision : decide (cell.map (·.value)) timestamp with
      | error e =>
          rw [hdecision, Decides, follows_error] at hdecided
          rw [hdecided] at hmutate
          dsimp only [map_error, error_bind] at hmutate ⊢
          rw [hmutate]
          rfl
      | ok decision =>
          rw [hdecision, Decides, follows_ok] at hdecided
          obtain ⟨encoded, hencoded, hcaptured, hencodes⟩ := hdecided
          have hmutated := follows_mutated hshows hencodes (times.now + times.delay)
          rw [hencoded] at hmutate
          dsimp only [map_ok, ok_bind] at hmutate ⊢
          cases hwritten : mutatedEntry (times.now + times.delay) cell decision.2 with
          | error error =>
              rw [hwritten, follows_error] at hmutated
              rw [hmutated] at hmutate
              dsimp only [mapError_error, error_bind] at hmutate ⊢
              rw [hmutate]
              rfl
          | ok written =>
              rw [hwritten, follows_ok] at hmutated
              obtain ⟨writtenBytes, hwrittenBytes, houtcome, hshows'⟩ := hmutated
              rw [hwrittenBytes] at hmutate
              obtain ⟨t', heq, hview⟩ := hmutate
              rw [heq]
              dsimp only [mapError_ok, ok_bind]
              rw [hencoded]
              refine ⟨t', writtenBytes.2, ?_, hshows', hview⟩
              rw [← hcaptured, ← houtcome]
              rfl

theorem decides_initOrKeep (hlawful : Lawful plaintext calls) (hcodec : calls codec)
    (hshows : Shows plaintext calls key stored cell) (initialValue : T) (ttl : Ttl) (timestamp : Int) :
    Decides plaintext calls key
      ((initOrKeep plaintext codec initialValue ttl key ⟨stored.map (·.value), timestamp⟩).mapError
        fun error => lift (.codec error))
      (getOrInitDecision lift plaintext codec initialValue ttl key (cell.map (·.value))) := by
  apply Follows.mapError
  cases hshows with
  | none =>
      apply (follows_encode hlawful hcodec 0 key initialValue).bind
      intro bytes _ hreads
      exact .ok ⟨rfl, .setValue ttl hreads⟩
  | some hreads =>
      dsimp only [Option.map_some, initOrKeep]
      rw [decodeValueForKey_eq hreads hcodec]
      cases codec.getKeyset with
      | error e => exact .error e
      | ok => exact .ok ⟨rfl, .keepExisting⟩

theorem decides_onValue (hlawful : Lawful plaintext calls) (hcodec : calls codec)
    (hshows : Shows plaintext calls key stored cell)
    (decideMutation : ItemAtomicMutationCurrent T → Except E (AtomicMutation T)) (timestamp : Int) :
    Decides plaintext calls key
      (decideOnValue lift plaintext codec decideMutation key ⟨stored.map (·.value), timestamp⟩)
      (valueDecision lift plaintext codec decideMutation key (cell.map (·.value)) timestamp) := by
  have hnext : ∀ previous, Decides plaintext calls key
      (do
        let mutation ← decideMutation ⟨previous, timestamp⟩
        let encoded ← (encodeAtomicMutationForKey plaintext codec 0 key mutation).mapError fun error =>
          lift (.codec error)
        return (previous, encoded))
      (do
        let mutation ← decideMutation ⟨previous, timestamp⟩
        (acceptsMutation plaintext codec 0 key mutation).mapError fun error => lift (.codec error)
        return (previous, mutation)) := by
    intro previous
    apply (follows_same _).bind
    rintro mutation _ rfl
    apply ((follows_encodeMutation hlawful hcodec 0 key mutation).mapError _).bind
    intro encoded _ hencodes
    exact .ok ⟨rfl, hencodes⟩
  cases hshows with
  | none => exact hnext none
  | @some bytes value expiresAt hreads =>
      rw [decideOnValue, valueDecision]
      dsimp only [Option.map_some]
      rw [decodeValueForKey_eq hreads hcodec]
      cases codec.getKeyset with
      | error e => exact .error _
      | ok => exact hnext (some value)

theorem decides_onLiveValue (hlawful : Lawful plaintext calls) (hcodec : calls codec) {bytes : Bytes}
    {value : T} (hreads : ReadsAs plaintext calls key bytes value)
    (decideMutation : ItemAtomicLiveMutationCurrent T → Except E (AtomicMutation T)) (n : Nat)
    (timestamp : Int) :
    Decides plaintext calls key
      (decideOnLiveValue lift plaintext codec decideMutation n key bytes timestamp)
      (liveDecision lift plaintext codec decideMutation n key value timestamp) := by
  rw [decideOnLiveValue, liveDecision, decodeValueForKey_eq hreads hcodec]
  cases codec.getKeyset with
  | error e => exact .error _
  | ok =>
      apply (follows_same (decideMutation ⟨value, timestamp⟩)).bind
      rintro mutation _ rfl
      apply ((follows_encodeMutation hlawful hcodec n key mutation).mapError _).bind
      intro encoded _ hencodes
      exact .ok ⟨rfl, hencodes⟩

theorem decides_initializeThenDecide (hlawful : Lawful plaintext calls) (hcodec : calls codec)
    (hshows : Shows plaintext calls key stored cell) (initializeValue : Int → Except E (T × Ttl))
    (decideMutation : ItemAtomicLiveMutationCurrent T → Except E (AtomicMutation T)) (timestamp : Int) :
    Decides plaintext calls key
      (initializeThenDecide lift plaintext codec initializeValue decideMutation key
        ⟨stored.map (·.value), timestamp⟩)
      (liveOrInitDecision lift plaintext codec initializeValue decideMutation key
        (cell.map (·.value)) timestamp) := by
  cases hshows with
  | some hreads =>
      apply (decides_onLiveValue hlawful hcodec hreads decideMutation 0 timestamp).bind
      rintro ⟨seen, encoded⟩ ⟨_, mutation⟩ ⟨rfl, hencodes⟩
      exact .ok ⟨rfl, hencodes⟩
  | none =>
      apply (follows_same (initializeValue timestamp)).bind
      rintro ⟨initialValue, initialTtl⟩ _ rfl
      apply ((follows_encode hlawful hcodec 0 key initialValue).mapError _).bind
      intro bytes _ hreads
      apply (decides_onLiveValue hlawful hcodec hreads decideMutation 1 timestamp).bind
      rintro ⟨seen, encoded⟩ ⟨_, mutation⟩ ⟨rfl, hencodes⟩
      apply Follows.ok
      refine ⟨rfl, ?_⟩
      -- An absent value that is kept is written, and takes the initial expiry.
      cases hencodes with
      | keepExisting => exact .setValue initialTtl hreads
      | setValuePreservingExpiration hreads => exact .setValue initialTtl hreads
      | setValue ttl hreads => exact .setValue ttl hreads
      | delete => exact .delete

/-- A call that mutates its key atomically. -/
theorem refines_decided {κ : Type} {operation : ItemOperation T E} {keyParts : List String}
    {decideMutation : Key → AtomicMutationCurrent → Except E (κ × AtomicMutation Bytes)}
    {decide : Key → Option T → Int → Except E (κ × AtomicMutation T)}
    {reply : κ → AtomicMutationOutcome → ItemReply T}
    (hM : Represents plaintext calls keyPrefix times.now t M)
    (heffect : itemEffect lift plaintext codec times operation = some (keyParts, fun key =>
      decided lift times (decide key) reply))
    (hrun : runItem lift plaintext codec keyPrefix times operation t = (do
      let (captured, outcome, t) ← mutateCapturing lift keyPrefix times keyParts decideMutation t
      return (reply captured outcome, t)))
    (hdecides : ∀ key, Shows plaintext calls key (t.view times.now key) (M.view times.now key) →
      ∀ timestamp, Decides plaintext calls key
        (decideMutation key ⟨(t.view times.now key).map (·.value), timestamp⟩)
        (decide key ((M.view times.now key).map (·.value)) timestamp)) :
    Refines lift plaintext calls codec keyPrefix times M operation t
      (runItem lift plaintext codec keyPrefix times operation t) := by
  apply refines_onKey hM heffect
  · intro error hkey
    rw [hrun, mutateCapturing, hkey]
    rfl
  · intro key hkey hcontains
    rw [hrun]
    exact affects_decided reply hkey (hM key hcontains) (hdecides key (hM key hcontains))

theorem refines_getOrInit (hlawful : Lawful plaintext calls)
    (hM : Represents plaintext calls keyPrefix times.now t M) (hcodec : calls codec)
    (keyParts : List String) (initialValue : T) (ttl : Ttl) :
    Refines lift plaintext calls codec keyPrefix times M (.getOrInit keyParts initialValue ttl) t
      (runItem lift plaintext codec keyPrefix times (.getOrInit keyParts initialValue ttl) t) :=
  refines_decided hM rfl rfl fun _ hshows timestamp =>
    decides_initOrKeep hlawful hcodec hshows initialValue ttl timestamp

theorem refines_mutateAtomically (hlawful : Lawful plaintext calls)
    (hM : Represents plaintext calls keyPrefix times.now t M) (hcodec : calls codec)
    (keyParts : List String)
    (decideMutation : ItemAtomicMutationCurrent T → Except E (AtomicMutation T)) :
    Refines lift plaintext calls codec keyPrefix times M (.mutateAtomically keyParts decideMutation) t
      (runItem lift plaintext codec keyPrefix times (.mutateAtomically keyParts decideMutation) t) :=
  refines_decided hM rfl rfl fun _ hshows timestamp =>
    decides_onValue hlawful hcodec hshows decideMutation timestamp

theorem refines_mutateLiveAtomically (hlawful : Lawful plaintext calls)
    (hM : Represents plaintext calls keyPrefix times.now t M) (hcodec : calls codec)
    (keyParts : List String)
    (decideMutation : ItemAtomicLiveMutationCurrent T → Except E (AtomicMutation T)) :
    Refines lift plaintext calls codec keyPrefix times M (.mutateLiveAtomically keyParts decideMutation) t
      (runItem lift plaintext codec keyPrefix times (.mutateLiveAtomically keyParts decideMutation) t) := by
  apply refines_decided hM rfl rfl
  intro key hshows timestamp
  generalize t.view times.now key = stored at hshows ⊢
  generalize M.view times.now key = cell at hshows ⊢
  cases hshows with
  | none => exact .error _
  | some hreads => exact decides_onLiveValue hlawful hcodec hreads decideMutation 0 timestamp

theorem refines_mutateLiveOrInsertInitialValueAtomically (hlawful : Lawful plaintext calls)
    (hM : Represents plaintext calls keyPrefix times.now t M) (hcodec : calls codec)
    (keyParts : List String) (initializeValue : Int → Except E (T × Ttl))
    (decideMutation : ItemAtomicLiveMutationCurrent T → Except E (AtomicMutation T)) :
    Refines lift plaintext calls codec keyPrefix times M
      (.mutateLiveOrInsertInitialValueAtomically keyParts initializeValue decideMutation) t
      (runItem lift plaintext codec keyPrefix times
        (.mutateLiveOrInsertInitialValueAtomically keyParts initializeValue decideMutation) t) :=
  refines_decided hM rfl rfl fun _ hshows timestamp =>
    decides_initializeThenDecide hlawful hcodec hshows initializeValue decideMutation timestamp

end Paranoid.ItemMutations
