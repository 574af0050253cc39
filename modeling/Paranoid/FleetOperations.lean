import Paranoid.FleetKeys
import Paranoid.KvScans
import Paranoid.TopicModel
import Paranoid.Utf8Text

namespace Paranoid.FleetOperations

open FleetKeys FleetNamespaces KvKeys KvModel KvPrefixes KvScans Postgres
open KvAtomic (KvError)
open LeaseModel (CoordinationError)
open TopicModel (topicSequenceKeySuffix)
open Utf8Text (utf8ByteSize_ofList utf8Len_digits)
open PaddedDecimal (isDigit_padded length_padded)

section Builds

def fleetMaxConcurrentLimit : Nat := 100

inductive HandleError
  | invalidSemaphoreMaxConcurrent (value max : Nat)
  | namespaceError (source : NamespaceError)
  deriving DecidableEq

/-- A handle, with the suffixes of its slots if it is a semaphore. -/
structure StoreHandle where
  handle : Handle
  slotSuffixes : List String

def isSemaphore : Primitive → Bool
  | .semaphore _ => true
  | _ => false

/-- The handle that a store makes. The greatest number of holders is a semaphore's. -/
def newStoreHandle (rootKey : RootKey) (primitive : Primitive) (maxConcurrent : Nat) :
    Except HandleError StoreHandle := do
  if isSemaphore primitive ∧ (maxConcurrent = 0 ∨ fleetMaxConcurrentLimit < maxConcurrent) then
    throw (.invalidSemaphoreMaxConcurrent maxConcurrent fleetMaxConcurrentLimit)
  let handle ← (newHandle rootKey.text primitive).mapError .namespaceError
  return ⟨handle, (List.range' 1 maxConcurrent).map toString⟩

inductive KeyBuildError
  | kv (source : KvError)
  | coordination (source : CoordinationError)
  deriving DecidableEq

/-- A key that an operation makes of a handle's own. -/
inductive KeyBuild
  | kvFromPrefixAndParts (keyPrefix : KeyPrefix) (suffixParts : List String)
  | kvFromPrefixAndRawSuffix (keyPrefix : KeyPrefix) (rawSuffix : String)
  | leaseFromParts (parts : List String)

def KeyBuild.run : KeyBuild → Except KeyBuildError Unit
  | kvFromPrefixAndParts keyPrefix suffixParts => do
      let _ ← (buildKeyFromPrefixAndParts keyPrefix suffixParts).mapError .kv
  | kvFromPrefixAndRawSuffix keyPrefix rawSuffix => do
      let _ ← (keyFromPrefixAndRawSuffix keyPrefix rawSuffix).mapError .kv
  | leaseFromParts parts => do
      let _ ← (LeaseModel.Key.fromParts parts).mapError .coordination

/-- Parts from a caller of a cache, which have passed its check and fit the key of a value. -/
structure CallerParts (cache : CoalescingCache) (keyParts validated : List String) : Prop where
  valid : validatedCacheKeyParts keyParts = .ok validated
  fits : (cache.valueItem.text ++ joinKeyParts validated).utf8ByteSize ≤ maxKvKeyBytes

/-- The keys that the operations of a handle make. The other keys that they use are those
that the handle has. -/
inductive Builds : StoreHandle → KeyBuild → Prop
  | counterValue (counter : Counter) (slots : List String) :
      Builds ⟨.counter counter, slots⟩ (.kvFromPrefixAndParts counter.item [fleetCounterValueKeyPart])
  | cacheValue (cache : CoalescingCache) (slots : List String) {keyParts validated : List String}
      (h : CallerParts cache keyParts validated) :
      Builds ⟨.coalescingCache cache, slots⟩ (.kvFromPrefixAndParts cache.valueItem validated)
  | cacheEpoch (cache : CoalescingCache) (slots : List String) :
      Builds ⟨.coalescingCache cache, slots⟩ (.kvFromPrefixAndParts cache.epochItem [])
  | cacheMutex (cache : CoalescingCache) (slots : List String) {keyParts validated : List String}
      (h : CallerParts cache keyParts validated) :
      Builds ⟨.coalescingCache cache, slots⟩ (.leaseFromParts
        ([cache.rootKey, fleetCacheComponentKey, cache.key,
          coalescingCacheMutexComponentKey] ++ validated))
  | topicSequence (topic : Topic) (slots : List String) :
      Builds ⟨.topic topic, slots⟩ (.kvFromPrefixAndParts topic.sequenceItem [])
  | topicEvent (topic : Topic) (slots : List String) {sequence : Nat} (h : (sequence : Int) ≤ i64Max) :
      Builds ⟨.topic topic, slots⟩
        (.kvFromPrefixAndParts topic.eventItem [topicSequenceKeySuffix sequence])
  | subscriptionEvents (subscription : Subscription) (slots : List String) {afterSequence : Nat}
      (h : (afterSequence : Int) ≤ i64Max) :
      Builds ⟨.subscription subscription, slots⟩
        (.kvFromPrefixAndRawSuffix subscription.eventItem (topicSequenceKeySuffix afterSequence))
  | subscriptionCursor (subscription : Subscription) (slots : List String) :
      Builds ⟨.subscription subscription, slots⟩ (.kvFromPrefixAndParts subscription.cursorItem [])
  | semaphoreSlot (semaphore : Semaphore) {slots : List String} {slot : String} (h : slot ∈ slots) :
      Builds ⟨.semaphore semaphore, slots⟩ (.kvFromPrefixAndParts semaphore.slotsItem [slot])
  | throttlerState (throttler : Throttler) (slots : List String) :
      Builds ⟨.throttler throttler, slots⟩
        (.kvFromPrefixAndParts throttler.stateItem [fleetThrottlerStateKeyPart])
  | rateLimiter {limiter : RateLimiter} {slots : List String} {build : KeyBuild}
      (h : Builds ⟨.throttler limiter.throttler, slots⟩ build) :
      Builds ⟨.rateLimiter limiter, slots⟩ build
  | circuitBreaker {breaker : CircuitBreaker} {slots : List String} {build : KeyBuild}
      (h : Builds ⟨.throttler breaker.throttler, slots⟩ build) :
      Builds ⟨.circuitBreaker breaker, slots⟩ build
  | onceDone (once : Once) (slots : List String) :
      Builds ⟨.once once, slots⟩ (.kvFromPrefixAndParts once.completionItem [fleetOnceDoneKeyPart])

/-- No operation of the handle fails for a key that it makes. -/
def FormsItsKeys (handle : StoreHandle) : Prop := ∀ build, Builds handle build → build.run = .ok ()

/-- The root key and the key of a handle leave room for the parts that its operations add. -/
def KeysFit (rootKey : RootKey) (maxConcurrent : Nat) : Primitive → Prop
  | .counter key => rootKey.text.utf8ByteSize + key.utf8ByteSize ≤ 2028
  | .topic key | .subscription key _ => rootKey.text.utf8ByteSize + key.utf8ByteSize ≤ 2007
  | .semaphore key =>
      rootKey.text.utf8ByteSize + key.utf8ByteSize + (toString maxConcurrent).utf8ByteSize ≤ 2024
  | .throttler key | .rateLimiter key | .circuitBreaker key =>
      rootKey.text.utf8ByteSize + key.utf8ByteSize ≤ 2026
  | .once key => rootKey.text.utf8ByteSize + key.utf8ByteSize ≤ 2020
  | .mutex _ | .cron _ | .coalescingCache _ => True

end Builds

section Sizes

variable {parts suffixParts : List String} {part : String} {keyPrefix : KeyPrefix} {key : Key}

/-- The bytes of a key, which has two for the separator behind each part. -/
def joinedBytes (parts : List String) : Nat := (parts.map fun part => part.utf8ByteSize + 2).sum

theorem utf8ByteSize_joinKeyParts (parts : List String) :
    (joinKeyParts parts).utf8ByteSize = joinedBytes parts := by
  induction parts with
  | nil => rfl
  | cons part parts ih =>
      have hcons : joinKeyParts (part :: parts) = part ++ kvKeySeparator ++ joinKeyParts parts :=
        joinKeyParts_append [part] parts
      rw [hcons, String.utf8ByteSize_append, String.utf8ByteSize_append, ih]
      rfl

/-- Parts of which a key can be built. -/
structure Buildable (parts : List String) : Prop where
  valid : ∀ part ∈ parts, validateKeyPart part = .ok ()
  short : joinedBytes parts ≤ maxKvKeyBytes

theorem buildable_iff (hne : parts ≠ []) :
    (∃ key, buildKeyFromParts parts = .ok key) ↔ Buildable parts := by
  constructor
  · rintro ⟨key, h⟩
    obtain ⟨hvalid, -, htext⟩ := buildKeyFromParts_eq_ok h
    exact ⟨forM_eq_ok.1 hvalid, by rw [← utf8ByteSize_joinKeyParts, ← htext]; exact key.short⟩
  · rintro ⟨hvalid, hshort⟩
    rw [buildKeyFromParts, forM_eq_ok.2 hvalid, ok_bind, if_neg hne]
    rw [← utf8ByteSize_joinKeyParts] at hshort
    exact ⟨_, dif_pos hshort⟩

theorem built_buildable (hstart : buildKeyFromParts parts = .ok keyPrefix) : Buildable parts :=
  (buildable_iff (buildKeyFromParts_eq_ok hstart).2.1).1 ⟨keyPrefix, hstart⟩

theorem joinedBytes_append (parts suffixParts : List String) :
    joinedBytes (parts ++ suffixParts) = joinedBytes parts + joinedBytes suffixParts := by
  rw [joinedBytes, List.map_append, List.sum_append]
  rfl

theorem discard_eq_ok {ε ε' α : Type} {x : Except ε α} {f : ε → ε'} :
    (do let _ ← x.mapError f) = (.ok () : Except ε' Unit) ↔ ∃ a, x = .ok a := by
  cases x with
  | error error => exact iff_of_false nofun nofun
  | ok a => exact iff_of_true rfl ⟨a, rfl⟩

/-- Valid parts behind a prefix make a key where there is room for them. -/
theorem run_iff (hstart : buildKeyFromParts parts = .ok keyPrefix) (suffixParts : List String)
    (hvalid : ∀ part ∈ suffixParts, validateKeyPart part = .ok ()) :
    (KeyBuild.kvFromPrefixAndParts keyPrefix suffixParts).run = .ok () ↔
      joinedBytes parts + joinedBytes suffixParts ≤ maxKvKeyBytes := by
  have hne : parts ++ suffixParts ≠ [] :=
    List.append_ne_nil_of_left_ne_nil (buildKeyFromParts_eq_ok hstart).2.1 _
  have hparts := (built_buildable hstart).valid
  rw [KeyBuild.run, discard_eq_ok, buildKeyFromPrefixAndParts_eq hstart, buildable_iff hne,
    ← joinedBytes_append]
  exact ⟨Buildable.short, fun hshort => ⟨List.forall_mem_append.2 ⟨hparts, hvalid⟩, hshort⟩⟩

theorem run_prefix (hstart : buildKeyFromParts parts = .ok keyPrefix) :
    (KeyBuild.kvFromPrefixAndParts keyPrefix []).run = .ok () := by
  rw [run_iff hstart [] fun part hpart => absurd hpart List.not_mem_nil]
  exact (built_buildable hstart).short

theorem run_part_iff (hstart : buildKeyFromParts parts = .ok keyPrefix)
    (hvalid : validateKeyPart part = .ok ()) :
    (KeyBuild.kvFromPrefixAndParts keyPrefix [part]).run = .ok () ↔
      joinedBytes parts + (part.utf8ByteSize + 2) ≤ maxKvKeyBytes :=
  run_iff hstart [part] (List.forall_mem_singleton.2 hvalid)

/-- A valid part as the raw suffix of a cursor makes the key that it makes as a part. -/
theorem run_raw (hvalid : validateKeyPart part = .ok ()) :
    (KeyBuild.kvFromPrefixAndRawSuffix keyPrefix part).run =
      (KeyBuild.kvFromPrefixAndParts keyPrefix [part]).run := by
  obtain ⟨hne, hnull⟩ := validateKeyPart_free hvalid
  have hparts : [part].forM validateKeyPart = .ok () :=
    forM_eq_ok.2 (List.forall_mem_singleton.2 hvalid)
  have hraw : validateRawSuffixCursor part = .ok () := lastGuard_eq_ok.2 hnull
  rw [KeyBuild.run, KeyBuild.run, keyFromPrefixAndRawSuffix,
    buildKeyFromPrefixAndParts, hparts, hraw, ok_bind,
    ok_bind, if_neg hne, String.append_assoc]
  rfl

theorem lease_run (hne : parts ≠ []) (h : Buildable parts) :
    (KeyBuild.leaseFromParts parts).run = .ok () := by
  have hvalid : parts.forM LeaseModel.validateKeyPart = .ok () := by
    refine forM_eq_ok.2 fun part hpart => ?_
    have hpart := h.valid part hpart
    simp only [validateKeyPart, guard_eq_ok, lastGuard_eq_ok] at hpart
    simp only [LeaseModel.validateKeyPart, guard_eq_ok, lastGuard_eq_ok]
    exact hpart
  have htext : LeaseModel.joinKeyParts parts = joinKeyParts parts := (if_neg hne).symm
  have hshort : (LeaseModel.joinKeyParts parts).utf8ByteSize ≤ LeaseModel.maxLeaseKeyBytes := by
    rw [htext, utf8ByteSize_joinKeyParts]
    exact h.short
  rw [KeyBuild.run, discard_eq_ok, LeaseModel.Key.fromParts, hvalid, ok_bind, if_neg hne]
  exact ⟨_, dif_pos hshort⟩

theorem validateKeyPart_of_digits {text : List Char}
    (hne : text ≠ []) (hdigits : ∀ c ∈ text, c.isDigit) :
    validateKeyPart (String.ofList text) = .ok () := by
  have hfree (c : Char) (hc : c.isDigit = false) : c ∉ (String.ofList text).toList := by
    rw [String.toList_ofList]
    exact fun hmem => Bool.false_ne_true (hc.symm.trans (hdigits c hmem))
  simp only [validateKeyPart, guard_eq_ok, lastGuard_eq_ok]
  refine ⟨fun hsize => hne ?_, hfree ':' rfl, hfree '\x00' rfl⟩
  have hempty := congrArg String.toList (String.utf8ByteSize_eq_zero_iff.1 hsize)
  rwa [String.toList_ofList] at hempty

theorem topicSequenceKeySuffix_valid (sequence : Nat) :
    validateKeyPart (topicSequenceKeySuffix sequence) = .ok () :=
  validateKeyPart_of_digits (List.ne_nil_of_length_eq_add_one (length_padded 20 sequence))
    (isDigit_padded 20 sequence)

theorem utf8ByteSize_topicSequenceKeySuffix (sequence : Nat) :
    (topicSequenceKeySuffix sequence).utf8ByteSize = 20 := by
  rw [topicSequenceKeySuffix, utf8ByteSize_ofList,
    utf8Len_digits (isDigit_padded 20 sequence), length_padded]

theorem toString_slot (slot : Nat) : toString slot = String.ofList (Nat.toDigits 10 slot) :=
  Nat.toString_eq_ofList_toDigits

theorem isDigit_slot (slot : Nat) : ∀ c ∈ Nat.toDigits 10 slot, c.isDigit :=
  fun _ hc => Nat.isDigit_of_mem_toDigits (by decide) (by decide) hc

theorem slot_valid (slot : Nat) : validateKeyPart (toString slot) = .ok () := by
  rw [toString_slot]
  exact validateKeyPart_of_digits Nat.toDigits_ne_nil (isDigit_slot slot)

/-- A greater slot has as many digits at least. -/
theorem slot_size_mono {slot other : Nat} (h : other ≤ slot) :
    (toString other).utf8ByteSize ≤ (toString slot).utf8ByteSize := by
  have hdigits : ∀ n k : Nat, 0 < k → ((Nat.toDigits 10 n).length ≤ k ↔ n < 10 ^ k) :=
    fun n k hk => Nat.length_toDigits_le_iff (by decide) hk
  have hpos : 0 < (Nat.toDigits 10 slot).length := Nat.length_toDigits_pos
  rw [toString_slot, toString_slot, utf8ByteSize_ofList, utf8ByteSize_ofList,
    utf8Len_digits (isDigit_slot other), utf8Len_digits (isDigit_slot slot)]
  exact (hdigits other _ hpos).2 (Nat.lt_of_le_of_lt h ((hdigits slot _ hpos).1 (Nat.le_refl _)))

@[simp] theorem joinedBytes_nil : joinedBytes [] = 0 := rfl

@[simp] theorem joinedBytes_cons (part : String) (parts : List String) :
    joinedBytes (part :: parts) = part.utf8ByteSize + 2 + joinedBytes parts := rfl

end Sizes

section Handles

variable {rootKey : RootKey} {root key : String} {slots : List String} {primitive : Primitive}
  {maxConcurrent : Nat} {storeHandle : StoreHandle}

theorem newStoreHandle_eq_ok (h : newStoreHandle rootKey primitive maxConcurrent = .ok storeHandle) :
    (isSemaphore primitive → 0 < maxConcurrent ∧ maxConcurrent ≤ fleetMaxConcurrentLimit) ∧
      ∃ handle, newHandle rootKey.text primitive = .ok handle ∧
        storeHandle = ⟨handle, (List.range' 1 maxConcurrent).map toString⟩ := by
  simp only [newStoreHandle, guard_eq_ok] at h
  obtain ⟨hlimit, h⟩ := h
  obtain ⟨handle, hhandle, h⟩ := bind_eq_ok.1 h
  cases h
  refine ⟨fun hsemaphore => ?_, handle, mapError_eq_ok.1 hhandle, rfl⟩
  constructor
  · exact Nat.pos_of_ne_zero fun hzero => hlimit ⟨hsemaphore, .inl hzero⟩
  · exact Nat.le_of_not_lt fun hlarge => hlimit ⟨hsemaphore, .inr hlarge⟩

theorem forms_single {build : KeyBuild} (hbuilds : ∀ other, Builds storeHandle other ↔ other = build) :
    FormsItsKeys storeHandle ↔ build.run = .ok () := by
  constructor
  · exact fun hforms => hforms build ((hbuilds build).2 rfl)
  · intro hrun other hother
    rw [(hbuilds other).1 hother]
    exact hrun

theorem counter_forms {counter : Counter} (h : newCounter root key = .ok counter) :
    FormsItsKeys ⟨.counter counter, slots⟩ ↔ root.utf8ByteSize + key.utf8ByteSize ≤ 2028 := by
  obtain ⟨item, hitem, h⟩ := bind_eq_ok.1 h
  cases h
  have hvalid : validateKeyPart fleetCounterValueKeyPart = .ok () := by decide
  have hcomponent : fleetCounterComponentKey.utf8ByteSize = 7 := by decide
  have hvalue : fleetCounterValueKeyPart.utf8ByteSize = 5 := by decide
  rw [forms_single fun other => ⟨fun h => by cases h; rfl, fun h => h ▸ .counterValue _ slots⟩,
    run_part_iff (mapError_eq_ok.1 hitem) hvalid]
  simp only [joinedBytes_cons, joinedBytes_nil, hcomponent, hvalue, maxKvKeyBytes]
  omega

theorem throttler_forms {throttler : Throttler} (h : newThrottler root key = .ok throttler) :
    FormsItsKeys ⟨.throttler throttler, slots⟩ ↔ root.utf8ByteSize + key.utf8ByteSize ≤ 2026 := by
  obtain ⟨item, hitem, h⟩ := bind_eq_ok.1 h
  cases h
  have hvalid : validateKeyPart fleetThrottlerStateKeyPart = .ok () := by decide
  have hcomponent : fleetThrottlerComponentKey.utf8ByteSize = 9 := by decide
  have hstate : fleetThrottlerStateKeyPart.utf8ByteSize = 5 := by decide
  rw [forms_single fun other => ⟨fun h => by cases h; rfl, fun h => h ▸ .throttlerState _ slots⟩,
    run_part_iff (mapError_eq_ok.1 hitem) hvalid]
  simp only [joinedBytes_cons, joinedBytes_nil, hcomponent, hstate, maxKvKeyBytes]
  omega

theorem rateLimiter_forms {limiter : RateLimiter} (h : newRateLimiter root key = .ok limiter) :
    FormsItsKeys ⟨.rateLimiter limiter, slots⟩ ↔ root.utf8ByteSize + key.utf8ByteSize ≤ 2026 := by
  obtain ⟨throttler, hthrottler, h⟩ := bind_eq_ok.1 h
  cases h
  rw [← throttler_forms hthrottler]
  constructor
  · exact fun hforms build hbuild => hforms build (.rateLimiter hbuild)
  · intro hforms build hbuild
    cases hbuild with
    | rateLimiter hbuild => exact hforms build hbuild

theorem circuitBreaker_forms {breaker : CircuitBreaker} (h : newCircuitBreaker root key = .ok breaker) :
    FormsItsKeys ⟨.circuitBreaker breaker, slots⟩ ↔ root.utf8ByteSize + key.utf8ByteSize ≤ 2026 := by
  obtain ⟨throttler, hthrottler, h⟩ := bind_eq_ok.1 h
  cases h
  rw [← throttler_forms hthrottler]
  constructor
  · exact fun hforms build hbuild => hforms build (.circuitBreaker hbuild)
  · intro hforms build hbuild
    cases hbuild with
    | circuitBreaker hbuild => exact hforms build hbuild

theorem once_forms {once : Once} (h : newOnce root key = .ok once) :
    FormsItsKeys ⟨.once once, slots⟩ ↔ root.utf8ByteSize + key.utf8ByteSize ≤ 2020 := by
  obtain ⟨item, hitem, h⟩ := bind_eq_ok.1 h
  obtain ⟨leaseKey, -, h⟩ := bind_eq_ok.1 h
  cases h
  have hvalid : validateKeyPart fleetOnceDoneKeyPart = .ok () := by decide
  have hcomponent : fleetOnceComponentKey.utf8ByteSize = 4 := by decide
  have hcompletion : fleetOnceCompletionComponentKey.utf8ByteSize = 10 := by decide
  have hdone : fleetOnceDoneKeyPart.utf8ByteSize = 4 := by decide
  rw [forms_single fun other => ⟨fun h => by cases h; rfl, fun h => h ▸ .onceDone _ slots⟩,
    run_part_iff (mapError_eq_ok.1 hitem) hvalid]
  simp only [joinedBytes_cons, joinedBytes_nil, hcomponent, hcompletion, hdone, maxKvKeyBytes]
  omega

theorem events_run {keyPrefix : KeyPrefix}
    (hstart : buildKeyFromParts [root, fleetTopicComponentKey, key, topicEventsComponentKey] =
      .ok keyPrefix)
    (sequence : Nat) :
    (KeyBuild.kvFromPrefixAndParts keyPrefix [topicSequenceKeySuffix sequence]).run = .ok () ↔
      root.utf8ByteSize + key.utf8ByteSize ≤ 2007 := by
  have hcomponent : fleetTopicComponentKey.utf8ByteSize = 5 := by decide
  have hevents : topicEventsComponentKey.utf8ByteSize = 6 := by decide
  rw [run_part_iff hstart (topicSequenceKeySuffix_valid sequence), utf8ByteSize_topicSequenceKeySuffix]
  simp only [joinedBytes_cons, joinedBytes_nil, hcomponent, hevents, maxKvKeyBytes]
  omega

theorem topic_forms {topic : Topic} (h : newTopic root key = .ok topic) :
    FormsItsKeys ⟨.topic topic, slots⟩ ↔ root.utf8ByteSize + key.utf8ByteSize ≤ 2007 := by
  obtain ⟨sequenceItem, hsequence, h⟩ := bind_eq_ok.1 h
  obtain ⟨eventItem, hevent, h⟩ := bind_eq_ok.1 h
  cases h
  have hevents := events_run (mapError_eq_ok.1 hevent)
  constructor
  · exact fun hforms => (hevents 0).1 (hforms _ (.topicEvent _ slots (by decide)))
  · intro hfits build hbuild
    cases hbuild with
    | topicSequence => exact run_prefix (mapError_eq_ok.1 hsequence)
    | topicEvent => exact (hevents _).2 hfits

theorem subscription_forms {topic : Topic} {subscriptionKey : String} {subscription : Subscription}
    (htopic : newTopic root key = .ok topic) (h : topic.subscribe subscriptionKey = .ok subscription) :
    FormsItsKeys ⟨.subscription subscription, slots⟩ ↔ root.utf8ByteSize + key.utf8ByteSize ≤ 2007 := by
  obtain ⟨sequenceItem, -, htopic⟩ := bind_eq_ok.1 htopic
  obtain ⟨eventItem, hevent, htopic⟩ := bind_eq_ok.1 htopic
  cases htopic
  obtain ⟨cursorItem, hcursor, h⟩ := bind_eq_ok.1 h
  obtain ⟨leaseKey, -, h⟩ := bind_eq_ok.1 h
  cases h
  have hevents (sequence : Nat) :
      (KeyBuild.kvFromPrefixAndRawSuffix eventItem (topicSequenceKeySuffix sequence)).run = .ok () ↔
        root.utf8ByteSize + key.utf8ByteSize ≤ 2007 := by
    rw [run_raw (topicSequenceKeySuffix_valid sequence), events_run (mapError_eq_ok.1 hevent)]
  constructor
  · exact fun hforms => (hevents 0).1 (hforms _ (.subscriptionEvents _ slots (by decide)))
  · intro hfits build hbuild
    cases hbuild with
    | subscriptionEvents => exact (hevents _).2 hfits
    | subscriptionCursor => exact run_prefix (mapError_eq_ok.1 hcursor)

/-- The last slot has the longest suffix. -/
theorem semaphore_forms {semaphore : Semaphore} (hpositive : 0 < maxConcurrent)
    (h : newSemaphore root key = .ok semaphore) :
    FormsItsKeys ⟨.semaphore semaphore, (List.range' 1 maxConcurrent).map toString⟩ ↔
      root.utf8ByteSize + key.utf8ByteSize + (toString maxConcurrent).utf8ByteSize ≤ 2024 := by
  obtain ⟨item, hitem, h⟩ := bind_eq_ok.1 h
  cases h
  have hcomponent : fleetSemaphoreComponentKey.utf8ByteSize = 9 := by decide
  have hslots : fleetSemaphoreSlotsComponentKey.utf8ByteSize = 5 := by decide
  have hrun (slot : Nat) :
      (KeyBuild.kvFromPrefixAndParts item [toString slot]).run = .ok () ↔
        root.utf8ByteSize + key.utf8ByteSize + (toString slot).utf8ByteSize ≤ 2024 := by
    rw [run_part_iff (mapError_eq_ok.1 hitem) (slot_valid slot)]
    simp only [joinedBytes_cons, joinedBytes_nil, hcomponent, hslots, maxKvKeyBytes]
    omega
  constructor
  · intro hforms
    have hlast : maxConcurrent ∈ List.range' 1 maxConcurrent := by
      rw [List.mem_range'_1]
      omega
    exact (hrun _).1 (hforms _ (.semaphoreSlot _ (List.mem_map_of_mem hlast)))
  · intro hfits build hbuild
    cases hbuild with
    | semaphoreSlot _ hslots =>
        obtain ⟨slot, hmem, rfl⟩ := List.mem_map.1 hslots
        rw [List.mem_range'_1] at hmem
        have hle : slot ≤ maxConcurrent := by omega
        have hsize := slot_size_mono hle
        exact (hrun slot).2 (by omega)

theorem validatedCacheKeyParts_eq_ok {keyParts validated : List String}
    (h : validatedCacheKeyParts keyParts = .ok validated) :
    ∀ part ∈ validated, validateKeyPart part = .ok () := by
  obtain ⟨_, hbuilt, h⟩ := bind_eq_ok.1 h
  cases h
  intro part hpart
  exact (built_buildable (mapError_eq_ok.1 hbuilt)).valid part (List.mem_cons_of_mem _ hpart)

/-- The key of the mutex is as long as that of the value. -/
theorem cache_forms {cache : CoalescingCache} (h : newCoalescingCache root key = .ok cache) :
    FormsItsKeys ⟨.coalescingCache cache, slots⟩ := by
  obtain ⟨valueItem, hvalue, h⟩ := bind_eq_ok.1 h
  obtain ⟨epochItem, hepoch, h⟩ := bind_eq_ok.1 h
  obtain ⟨leaseKey, -, h⟩ := bind_eq_ok.1 h
  cases h
  have hvalue := mapError_eq_ok.1 hvalue
  have hfixed := (built_buildable hvalue).valid
  have hshort {keyParts validated : List String}
      (h : CallerParts ⟨root, key, valueItem, epochItem⟩ keyParts validated) :
      joinedBytes [root, fleetCacheComponentKey, key,
        coalescingCacheValueComponentKey] + joinedBytes validated ≤
        maxKvKeyBytes := by
    have hfits := h.fits
    have htext := (buildKeyFromParts_eq_ok hvalue).2.2
    rwa [String.utf8ByteSize_append, htext,
      utf8ByteSize_joinKeyParts, utf8ByteSize_joinKeyParts] at hfits
  intro build hbuild
  cases hbuild with
  | cacheValue _ _ hcaller =>
      exact (run_iff hvalue _ (validatedCacheKeyParts_eq_ok hcaller.valid)).2 (hshort hcaller)
  | cacheEpoch => exact run_prefix (mapError_eq_ok.1 hepoch)
  | cacheMutex _ _ hcaller =>
      refine lease_run (List.cons_ne_nil _ _) ⟨?_, ?_⟩
      · rw [List.forall_mem_append]
        refine ⟨?_, validatedCacheKeyParts_eq_ok hcaller.valid⟩
        simp only [List.forall_mem_cons] at hfixed ⊢
        exact ⟨hfixed.1, hfixed.2.1, hfixed.2.2.1, by decide, hfixed.2.2.2.2⟩
      · have hmutex : coalescingCacheMutexComponentKey.utf8ByteSize = 5 := by decide
        have hvalue : coalescingCacheValueComponentKey.utf8ByteSize = 5 := by decide
        have hshort := hshort hcaller
        rw [joinedBytes_append]
        simp only [joinedBytes_cons, joinedBytes_nil] at hshort ⊢
        omega

/-- The operations of a handle that a store made never fail for a key of theirs exactly
when the keys that it was made with leave room for what they add. -/
theorem forms_keys_iff (rootKey : RootKey) (primitive : Primitive) (maxConcurrent : Nat)
    (storeHandle : StoreHandle) (h : newStoreHandle rootKey primitive maxConcurrent = .ok storeHandle) :
    FormsItsKeys storeHandle ↔ KeysFit rootKey maxConcurrent primitive := by
  obtain ⟨hlimit, handle, hhandle, rfl⟩ := newStoreHandle_eq_ok h
  cases primitive with
  | mutex key =>
      obtain ⟨mutex, -, hhandle⟩ := bind_eq_ok.1 hhandle
      cases hhandle
      exact iff_of_true (fun build hbuild => nomatch hbuild) trivial
  | counter key =>
      obtain ⟨counter, hcounter, hhandle⟩ := bind_eq_ok.1 hhandle
      cases hhandle
      exact counter_forms hcounter
  | coalescingCache key =>
      obtain ⟨cache, hcache, hhandle⟩ := bind_eq_ok.1 hhandle
      cases hhandle
      exact iff_of_true (cache_forms hcache) trivial
  | topic key =>
      obtain ⟨topic, htopic, hhandle⟩ := bind_eq_ok.1 hhandle
      cases hhandle
      exact topic_forms htopic
  | subscription topicKey key =>
      obtain ⟨topic, htopic, hhandle⟩ := bind_eq_ok.1 hhandle
      obtain ⟨subscription, hsubscription, hhandle⟩ := bind_eq_ok.1 hhandle
      cases hhandle
      exact subscription_forms htopic hsubscription
  | cron key =>
      obtain ⟨cron, -, hhandle⟩ := bind_eq_ok.1 hhandle
      cases hhandle
      exact iff_of_true (fun build hbuild => nomatch hbuild) trivial
  | semaphore key =>
      obtain ⟨semaphore, hsemaphore, hhandle⟩ := bind_eq_ok.1 hhandle
      cases hhandle
      exact semaphore_forms (hlimit rfl).1 hsemaphore
  | throttler key =>
      obtain ⟨throttler, hthrottler, hhandle⟩ := bind_eq_ok.1 hhandle
      cases hhandle
      exact throttler_forms hthrottler
  | rateLimiter key =>
      obtain ⟨limiter, hlimiter, hhandle⟩ := bind_eq_ok.1 hhandle
      cases hhandle
      exact rateLimiter_forms hlimiter
  | circuitBreaker key =>
      obtain ⟨breaker, hbreaker, hhandle⟩ := bind_eq_ok.1 hhandle
      cases hhandle
      exact circuitBreaker_forms hbreaker
  | once key =>
      obtain ⟨once, honce, hhandle⟩ := bind_eq_ok.1 hhandle
      cases hhandle
      exact once_forms honce

def defaultRootKey : RootKey := ⟨defaultFleetRootKey, by decide +kernel⟩

theorem forms_keys_iff_default :
    checkedPrimitive (.semaphore "uploads") = .ok (.semaphore "uploads") ∧ ∃ storeHandle,
    newStoreHandle defaultRootKey (.semaphore "uploads") 12 = .ok storeHandle ∧
      FormsItsKeys storeHandle := by
  refine ⟨by decide +kernel, ?_⟩
  have hmade : ∃ storeHandle,
    newStoreHandle defaultRootKey (.semaphore "uploads") 12 = .ok storeHandle :=
    ⟨_, rfl⟩
  obtain ⟨storeHandle, h⟩ := hmade
  refine ⟨storeHandle, h, (forms_keys_iff _ _ _ _ h).2 ?_⟩
  show _ ≤ _
  decide +kernel

def letters (size : Nat) : String := String.ofList (List.replicate size 'a')

theorem utf8ByteSize_letters (size : Nat) : (letters size).utf8ByteSize = size := by
  have hletter : Char.utf8Size 'a' = 1 := rfl
  rw [letters, utf8ByteSize_ofList, Utf8Text.utf8Len,
    List.map_replicate, List.sum_replicate_nat, hletter,
    Nat.mul_one]

theorem letters_valid {size : Nat} (hpositive : 0 < size) :
    validateKeyPart (letters size) = .ok () := by
  have hfree (c : Char) (hc : c ≠ 'a') : c ∉ (letters size).toList := by
    rw [letters, String.toList_ofList]
    exact fun hmem => hc (List.eq_of_mem_replicate hmem)
  simp only [validateKeyPart, guard_eq_ok, lastGuard_eq_ok]
  rw [utf8ByteSize_letters]
  exact ⟨hpositive.ne', hfree ':' (by decide), hfree '\x00' (by decide)⟩

/-- The longest key of a counter that is accepted. -/
def longCounterKey : String := letters 2019

theorem long_counter_key_refused : ∃ counter,
    checkedPrimitive (.counter longCounterKey) = .ok (.counter longCounterKey) ∧
      newStoreHandle defaultRootKey (.counter longCounterKey) 1 = .ok ⟨.counter counter, ["1"]⟩ ∧
      Builds ⟨.counter counter, ["1"]⟩ (.kvFromPrefixAndParts counter.item ["value"]) ∧
      (KeyBuild.kvFromPrefixAndParts counter.item ["value"]).run =
        .error (.kv (.keyTooLong 2055 2048)) := by
  have hkey : validateKeyPart longCounterKey = .ok () := letters_valid (by decide)
  have hlength : longCounterKey.utf8ByteSize = 2019 := utf8ByteSize_letters 2019
  have hbuildable : Buildable [defaultFleetRootKey, fleetCounterComponentKey, longCounterKey] := by
    refine ⟨?_, ?_⟩
    · simp only [List.forall_mem_cons]
      exact ⟨by decide, by decide, hkey, fun _ h => nomatch h⟩
    · rw [joinedBytes_cons, joinedBytes_cons, joinedBytes_cons, hlength]
      decide
  obtain ⟨item, hitem⟩ := (buildable_iff (List.cons_ne_nil _ _)).2 hbuildable
  have hfixed : buildCounterPrefix defaultFleetRootKey longCounterKey = .ok item :=
    mapError_eq_ok.2 hitem
  have hcounter : newCounter defaultFleetRootKey longCounterKey = .ok ⟨longCounterKey, item⟩ := by
    rw [newCounter, hfixed]
    rfl
  have hsize : (item.text ++ joinKeyParts ["value"]).utf8ByteSize = 2055 := by
    rw [String.utf8ByteSize_append, (buildKeyFromParts_eq_ok hitem).2.2,
      utf8ByteSize_joinKeyParts, joinedBytes_cons,
      joinedBytes_cons, joinedBytes_cons, hlength]
    decide +kernel
  refine ⟨⟨longCounterKey, item⟩, ?_, ?_, .counterValue _ _, ?_⟩
  · rw [checkedPrimitive, CounterKey.new, hfixed]
    rfl
  · have hhandle : newHandle defaultRootKey.text (.counter longCounterKey) =
        .ok (.counter ⟨longCounterKey, item⟩) := by
      rw [newHandle, show defaultRootKey.text = defaultFleetRootKey from rfl, hcounter]
      rfl
    rw [newStoreHandle, hhandle]
    rfl
  · have hvalue : validateKeyPart "value" = .ok () := by decide
    have hlong : validateKeyLength (item.text ++ joinKeyParts ["value"]) =
        .error (.keyTooLong 2055 2048) := by
      rw [validateKeyLength, dif_neg (by rw [hsize]; decide), hsize]
      rfl
    rw [KeyBuild.run, buildKeyFromPrefixAndParts,
      forM_eq_ok.2 (List.forall_mem_singleton.2 hvalue), ok_bind,
      hlong]
    rfl

end Handles

end Paranoid.FleetOperations
