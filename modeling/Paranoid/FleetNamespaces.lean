import Paranoid.KvKeys

namespace Paranoid.FleetNamespaces

open KvAtomic KvModel KvKeys
open LeaseModel (CoordinationError)

abbrev LeaseKey : Type := LeaseModel.Key

inductive NamespaceError
  | invalidMutexKey (source : CoordinationError)
  | invalidCounterKey (source : KvError)
  | invalidCoalescingCacheKeyForValue (source : KvError)
  | invalidCoalescingCacheKeyForEpoch (source : KvError)
  | invalidCoalescingCacheKeyForMutex (source : CoordinationError)
  | invalidTopicKeyForSequence (source : KvError)
  | invalidTopicKeyForEvents (source : KvError)
  | invalidSubscriptionKeyForCursor (source : KvError)
  | invalidSubscriptionKeyForPollingMutex (source : CoordinationError)
  | invalidCronKey (source : CoordinationError)
  | invalidSemaphoreKey (source : KvError)
  | invalidThrottlerKey (source : KvError)
  | invalidOnceKeyForCompletionMarker (source : KvError)
  | invalidOnceKeyForMutex (source : CoordinationError)
  deriving DecidableEq

section Constants

def fleetMutexComponentKey : String := "mutex"

def fleetCounterComponentKey : String := "counter"

def fleetSemaphoreComponentKey : String := "semaphore"

def fleetThrottlerComponentKey : String := "throttler"

def fleetOnceComponentKey : String := "once"

def fleetCacheComponentKey : String := "cache"

def fleetTopicComponentKey : String := "topic"

def fleetCronComponentKey : String := "cron"

def fleetOnceCompletionComponentKey : String := "completion"

def fleetOnceMutexComponentKey : String := "mutex"

def fleetOnceDoneKeyPart : String := "done"

def fleetCounterValueKeyPart : String := "value"

def fleetSemaphoreSlotsComponentKey : String := "slots"

def fleetThrottlerStateKeyPart : String := "state"

def coalescingCacheValueComponentKey : String := "value"

def coalescingCacheEpochComponentKey : String := "epoch"

def coalescingCacheMutexComponentKey : String := "mutex"

def topicSequenceComponentKey : String := "sequence"

def topicEventsComponentKey : String := "events"

def topicSubscriptionsComponentKey : String := "subscriptions"

def topicCursorComponentKey : String := "cursor"

def topicPollingMutexComponentKey : String := "polling_mutex"

end Constants

section Builders

variable (rootKey : String)

def buildCounterPrefix (counterKey : String) : Except NamespaceError KeyPrefix :=
  (buildKeyFromParts [rootKey, fleetCounterComponentKey, counterKey]).mapError .invalidCounterKey

def buildTopicSequencePrefix (topicKey : String) : Except KvError KeyPrefix :=
  buildKeyFromParts [rootKey, fleetTopicComponentKey, topicKey, topicSequenceComponentKey]

def buildTopicEventsPrefix (topicKey : String) : Except KvError KeyPrefix :=
  buildKeyFromParts [rootKey, fleetTopicComponentKey, topicKey, topicEventsComponentKey]

def buildSubscriptionCursorPrefix (topicKey subscriptionKey : String) : Except KvError KeyPrefix :=
  buildKeyFromParts [rootKey, fleetTopicComponentKey,
    topicKey, topicSubscriptionsComponentKey, subscriptionKey,
    topicCursorComponentKey]

def buildSubscriptionPollingMutexLeaseKey (topicKey subscriptionKey : String) :
    Except CoordinationError LeaseKey :=
  LeaseModel.Key.fromParts [rootKey, fleetTopicComponentKey, topicKey, topicSubscriptionsComponentKey,
    subscriptionKey, topicPollingMutexComponentKey]

def buildCronMutexLeaseKey (cronKey : String) : Except CoordinationError LeaseKey :=
  LeaseModel.Key.fromParts [rootKey, fleetCronComponentKey, cronKey]

def buildCoalescingCacheValuePrefix (cacheKey : String) : Except KvError KeyPrefix :=
  buildKeyFromParts [rootKey, fleetCacheComponentKey, cacheKey, coalescingCacheValueComponentKey]

def buildCoalescingCacheEpochPrefix (cacheKey : String) : Except KvError KeyPrefix :=
  buildKeyFromParts [rootKey, fleetCacheComponentKey, cacheKey, coalescingCacheEpochComponentKey]

def buildCoalescingCacheMutexLeaseKey (cacheKey : String) (keyParts : List String) :
    Except CoordinationError LeaseKey :=
  LeaseModel.Key.fromParts
    ([rootKey, fleetCacheComponentKey, cacheKey, coalescingCacheMutexComponentKey] ++ keyParts)

def validatedCacheKeyParts (keyParts : List String) : Except NamespaceError (List String) := do
  let _ ← (buildKeyFromParts ("validation" :: keyParts)).mapError .invalidCoalescingCacheKeyForValue
  return keyParts

def buildSemaphoreSlotsPrefix (semaphoreKey : String) : Except NamespaceError KeyPrefix :=
  (buildKeyFromParts [rootKey, fleetSemaphoreComponentKey, fleetSemaphoreSlotsComponentKey,
    semaphoreKey]).mapError .invalidSemaphoreKey

def buildThrottlerStatePrefix (throttlerKey : String) : Except NamespaceError KeyPrefix :=
  (buildKeyFromParts [rootKey, fleetThrottlerComponentKey, throttlerKey]).mapError .invalidThrottlerKey

def buildOnceCompletionPrefix (onceKey : String) : Except NamespaceError KeyPrefix :=
  (buildKeyFromParts [rootKey, fleetOnceComponentKey, fleetOnceCompletionComponentKey,
    onceKey]).mapError .invalidOnceKeyForCompletionMarker

def buildOnceMutexLeaseKey (onceKey : String) : Except NamespaceError LeaseKey :=
  (LeaseModel.Key.fromParts [rootKey, fleetOnceComponentKey, fleetOnceMutexComponentKey,
    onceKey]).mapError .invalidOnceKeyForMutex

end Builders

section Handles

structure Mutex where
  key : String
  leaseKey : LeaseKey

structure Counter where
  key : String
  item : KeyPrefix

structure CoalescingCache where
  rootKey : String
  key : String
  valueItem : KeyPrefix
  epochItem : KeyPrefix

structure Topic where
  rootKey : String
  key : String
  sequenceItem : KeyPrefix
  eventItem : KeyPrefix

structure Subscription where
  topicKey : String
  key : String
  eventItem : KeyPrefix
  cursorItem : KeyPrefix
  pollingMutex : Mutex

structure Cron where
  key : String
  mutex : Mutex

structure Semaphore where
  key : String
  slotsItem : KeyPrefix

structure Throttler where
  key : String
  stateItem : KeyPrefix

structure RateLimiter where
  key : String
  throttler : Throttler

structure CircuitBreaker where
  key : String
  throttler : Throttler

structure Once where
  key : String
  completionItem : KeyPrefix
  mutex : Mutex

variable (rootKey : String)

def newMutex (key : String) : Except NamespaceError Mutex := do
  let leaseKey ← (LeaseModel.Key.fromParts [rootKey, fleetMutexComponentKey, key]).mapError
    .invalidMutexKey
  return ⟨key, leaseKey⟩

def newCounter (key : String) : Except NamespaceError Counter := do
  return ⟨key, ← buildCounterPrefix rootKey key⟩

def newCoalescingCache (key : String) : Except NamespaceError CoalescingCache := do
  let valueItem ← (buildCoalescingCacheValuePrefix rootKey key).mapError
    .invalidCoalescingCacheKeyForValue
  let epochItem ← (buildCoalescingCacheEpochPrefix rootKey key).mapError
    .invalidCoalescingCacheKeyForEpoch
  let _ ← (buildCoalescingCacheMutexLeaseKey rootKey key []).mapError .invalidCoalescingCacheKeyForMutex
  return ⟨rootKey, key, valueItem, epochItem⟩

def newTopic (key : String) : Except NamespaceError Topic := do
  let sequenceItem ← (buildTopicSequencePrefix rootKey key).mapError .invalidTopicKeyForSequence
  let eventItem ← (buildTopicEventsPrefix rootKey key).mapError .invalidTopicKeyForEvents
  return ⟨rootKey, key, sequenceItem, eventItem⟩

def Topic.subscribe (topic : Topic) (key : String) : Except NamespaceError Subscription := do
  let cursorItem ←
    (buildSubscriptionCursorPrefix topic.rootKey topic.key key).mapError
      .invalidSubscriptionKeyForCursor
  let leaseKey ←
    (buildSubscriptionPollingMutexLeaseKey topic.rootKey topic.key key).mapError
      .invalidSubscriptionKeyForPollingMutex
  return ⟨topic.key, key, topic.eventItem, cursorItem, ⟨key, leaseKey⟩⟩

def newCron (key : String) : Except NamespaceError Cron := do
  let leaseKey ← (buildCronMutexLeaseKey rootKey key).mapError .invalidCronKey
  return ⟨key, ⟨key, leaseKey⟩⟩

def newSemaphore (key : String) : Except NamespaceError Semaphore := do
  return ⟨key, ← buildSemaphoreSlotsPrefix rootKey key⟩

def newThrottler (key : String) : Except NamespaceError Throttler := do
  return ⟨key, ← buildThrottlerStatePrefix rootKey key⟩

/-- A throttler of the same key with a rate limit alone. -/
def newRateLimiter (key : String) : Except NamespaceError RateLimiter := do
  return ⟨key, ← newThrottler rootKey key⟩

/-- A throttler of the same key with a circuit breaker alone. -/
def newCircuitBreaker (key : String) : Except NamespaceError CircuitBreaker := do
  return ⟨key, ← newThrottler rootKey key⟩

def newOnce (key : String) : Except NamespaceError Once := do
  let completionItem ← buildOnceCompletionPrefix rootKey key
  let leaseKey ← buildOnceMutexLeaseKey rootKey key
  return ⟨key, completionItem, ⟨key, leaseKey⟩⟩

inductive Handle
  | mutex (handle : Mutex)
  | counter (handle : Counter)
  | coalescingCache (handle : CoalescingCache)
  | topic (handle : Topic)
  | subscription (handle : Subscription)
  | cron (handle : Cron)
  | semaphore (handle : Semaphore)
  | throttler (handle : Throttler)
  | rateLimiter (handle : RateLimiter)
  | circuitBreaker (handle : CircuitBreaker)
  | once (handle : Once)

/-- A kind of handle with the user keys it is made for. -/
inductive Primitive
  | mutex (key : String)
  | counter (key : String)
  | coalescingCache (key : String)
  | topic (key : String)
  | subscription (topicKey key : String)
  | cron (key : String)
  | semaphore (key : String)
  | throttler (key : String)
  | rateLimiter (key : String)
  | circuitBreaker (key : String)
  | once (key : String)
  deriving DecidableEq

/-- The handle of a primitive, as far as its storage goes: the limits, durations and
other settings of a handle decide whether it is refused, and none of its keys. -/
def newHandle : Primitive → Except NamespaceError Handle
  | .mutex key => do return .mutex (← newMutex rootKey key)
  | .counter key => do return .counter (← newCounter rootKey key)
  | .coalescingCache key => do return .coalescingCache (← newCoalescingCache rootKey key)
  | .topic key => do return .topic (← newTopic rootKey key)
  | .subscription topicKey key =>
      do return .subscription (← (← newTopic rootKey topicKey).subscribe key)
  | .cron key => do return .cron (← newCron rootKey key)
  | .semaphore key => do return .semaphore (← newSemaphore rootKey key)
  | .throttler key => do return .throttler (← newThrottler rootKey key)
  | .rateLimiter key => do return .rateLimiter (← newRateLimiter rootKey key)
  | .circuitBreaker key => do return .circuitBreaker (← newCircuitBreaker rootKey key)
  | .once key => do return .once (← newOnce rootKey key)

end Handles

section Accesses

/-- The rows that a statement addresses: by their key, or by a pattern for a prefix. -/
inductive Access
  | row (key : Key)
  | under (keyPrefix : KeyPrefix)

def Access.Covers : Access → Key → Prop
  | .row own, key => key = own
  | .under keyPrefix, key => key.like (prefixLikePattern keyPrefix)

inductive Mode
  | read
  | write
  deriving DecidableEq

/-- The accesses of a handle's operations to the table of values. A write may read,
insert, update or delete. -/
inductive KvAccess : Handle → Mode → Access → Prop
  | counterValue {counter : Counter} {key : Key}
      (h : buildKeyFromPrefixAndParts counter.item [fleetCounterValueKeyPart] = .ok key) :
      KvAccess (.counter counter) .write (.row key)
  | cacheValue {cache : CoalescingCache} {key : Key} {keyParts validated : List String}
      (hparts : validatedCacheKeyParts keyParts = .ok validated)
      (h : buildKeyFromPrefixAndParts cache.valueItem validated = .ok key) :
      KvAccess (.coalescingCache cache) .write (.row key)
  | cacheEpoch {cache : CoalescingCache} {key : Key} (h : buildKeyFromPrefixAndParts cache.epochItem [] = .ok key) :
      KvAccess (.coalescingCache cache) .write (.row key)
  | topicSequence {topic : Topic} {key : Key} (h : buildKeyFromPrefixAndParts topic.sequenceItem [] = .ok key) :
      KvAccess (.topic topic) .write (.row key)
  | topicEvent {topic : Topic} {key : Key} (eventKeySuffix : String)
      (h : buildKeyFromPrefixAndParts topic.eventItem [eventKeySuffix] = .ok key) :
      KvAccess (.topic topic) .write (.row key)
  | topicPurge {topic : Topic} : KvAccess (.topic topic) .write (.under topic.eventItem)
  | subscriptionEvents {subscription : Subscription} :
      KvAccess (.subscription subscription) .read (.under subscription.eventItem)
  | subscriptionCursor {subscription : Subscription} {key : Key}
      (h : buildKeyFromPrefixAndParts subscription.cursorItem [] = .ok key) :
      KvAccess (.subscription subscription) .write (.row key)
  | semaphoreSlot {semaphore : Semaphore} {key : Key} (slotSuffix : String)
      (h : buildKeyFromPrefixAndParts semaphore.slotsItem [slotSuffix] = .ok key) :
      KvAccess (.semaphore semaphore) .write (.row key)
  | semaphoreReset {semaphore : Semaphore} : KvAccess (.semaphore semaphore) .write (.under semaphore.slotsItem)
  | throttlerState {throttler : Throttler} {key : Key}
      (h : buildKeyFromPrefixAndParts throttler.stateItem [fleetThrottlerStateKeyPart] = .ok key) :
      KvAccess (.throttler throttler) .write (.row key)
  | rateLimiter {limiter : RateLimiter} {mode : Mode} {access : Access}
      (h : KvAccess (.throttler limiter.throttler) mode access) :
      KvAccess (.rateLimiter limiter) mode access
  | circuitBreaker {breaker : CircuitBreaker} {mode : Mode} {access : Access}
      (h : KvAccess (.throttler breaker.throttler) mode access) :
      KvAccess (.circuitBreaker breaker) mode access
  | onceDone {once : Once} {key : Key}
      (h : buildKeyFromPrefixAndParts once.completionItem [fleetOnceDoneKeyPart] = .ok key) :
      KvAccess (.once once) .write (.row key)

/-- The rows of the lease tables that a handle's operations address. -/
inductive LeaseAccess : Handle → LeaseKey → Prop
  | mutex (mutex : Mutex) : LeaseAccess (.mutex mutex) mutex.leaseKey
  | cache {cache : CoalescingCache} {keyParts validated : List String} {leaseKey : LeaseKey}
      (hparts : validatedCacheKeyParts keyParts = .ok validated)
      (h : buildCoalescingCacheMutexLeaseKey cache.rootKey cache.key validated = .ok leaseKey) :
      LeaseAccess (.coalescingCache cache) leaseKey
  | subscription (subscription : Subscription) :
      LeaseAccess (.subscription subscription) subscription.pollingMutex.leaseKey
  | cron (cron : Cron) : LeaseAccess (.cron cron) cron.mutex.leaseKey
  | once (once : Once) : LeaseAccess (.once once) once.mutex.leaseKey

end Accesses

end Paranoid.FleetNamespaces
