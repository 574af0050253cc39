import Paranoid.FleetNamespaces

namespace Paranoid.FleetKeys

open FleetNamespaces KvKeys KvModel Postgres
open KvAtomic (KvError)
open LeaseModel (CoordinationError)

inductive KeyError
  | invalidRootKey (source : CoordinationError)
  | invalidRootKeyForKv (source : KvError)
  | invalidRateLimiterKey (source : KvError)
  | invalidCircuitBreakerKey (source : KvError)
  | namespaceError (source : NamespaceError)
  deriving DecidableEq

def defaultFleetRootKey : String := "__paranoid_fleet"

def validateRootKey (input : String) : Except KeyError Unit := do
  let _ ← (LeaseModel.Key.fromParts [input, fleetMutexComponentKey, "validation"]).mapError
    .invalidRootKey
  let _ ← (buildKeyFromParts [input, fleetCounterComponentKey, "validation"]).mapError
    .invalidRootKeyForKv
  let _ ← (buildCoalescingCacheValuePrefix input "validation").mapError .invalidRootKeyForKv
  let _ ← (buildCoalescingCacheEpochPrefix input "validation").mapError .invalidRootKeyForKv
  let _ ← (buildCoalescingCacheMutexLeaseKey input "validation" []).mapError .invalidRootKey
  let _ ← (buildTopicSequencePrefix input "validation").mapError .invalidRootKeyForKv
  let _ ← (buildTopicEventsPrefix input "validation").mapError .invalidRootKeyForKv
  let _ ← (buildSubscriptionCursorPrefix input "validation" "validation").mapError .invalidRootKeyForKv
  let _ ← (buildCronMutexLeaseKey input "validation").mapError .invalidRootKey
  let _ ← (buildKeyFromParts [input, fleetSemaphoreComponentKey, "validation"]).mapError
    .invalidRootKeyForKv
  let _ ← (buildKeyFromParts [input, fleetThrottlerComponentKey, "validation"]).mapError
    .invalidRootKeyForKv
  let _ ← (buildKeyFromParts [input, fleetOnceComponentKey, fleetOnceCompletionComponentKey,
    "validation"]).mapError .invalidRootKeyForKv

structure RootKey where
  text : String
  valid : validateRootKey text = .ok ()
  deriving DecidableEq

theorem RootKey.eq_of_text {rootKey other : RootKey} (h : rootKey.text = other.text) :
    rootKey = other := by
  cases rootKey
  cases other
  cases h
  rfl

section UserKeys

def MutexKey.new (input : String) : Except KeyError String := do
  let _ ← (LeaseModel.Key.fromParts [defaultFleetRootKey, fleetMutexComponentKey, input]).mapError
    fun source => .namespaceError (.invalidMutexKey source)
  return input

def CounterKey.new (input : String) : Except KeyError String := do
  let _ ← (buildCounterPrefix defaultFleetRootKey input).mapError .namespaceError
  return input

def CoalescingCacheKey.new (input : String) : Except KeyError String := do
  let _ ← (buildCoalescingCacheValuePrefix defaultFleetRootKey input).mapError
    fun source => .namespaceError (.invalidCoalescingCacheKeyForValue source)
  let _ ← (buildCoalescingCacheEpochPrefix defaultFleetRootKey input).mapError
    fun source => .namespaceError (.invalidCoalescingCacheKeyForEpoch source)
  let _ ← (buildCoalescingCacheMutexLeaseKey defaultFleetRootKey input []).mapError
    fun source => .namespaceError (.invalidCoalescingCacheKeyForMutex source)
  return input

def TopicKey.new (input : String) : Except KeyError String := do
  let _ ← (buildTopicSequencePrefix defaultFleetRootKey input).mapError
    fun source => .namespaceError (.invalidTopicKeyForSequence source)
  let _ ← (buildTopicEventsPrefix defaultFleetRootKey input).mapError
    fun source => .namespaceError (.invalidTopicKeyForEvents source)
  return input

def SubscriptionKey.new (input : String) : Except KeyError String := do
  let _ ← (buildSubscriptionCursorPrefix defaultFleetRootKey "validation" input).mapError
    fun source => .namespaceError (.invalidSubscriptionKeyForCursor source)
  let _ ← (buildSubscriptionPollingMutexLeaseKey defaultFleetRootKey "validation" input).mapError
    fun source => .namespaceError (.invalidSubscriptionKeyForPollingMutex source)
  return input

def CronKey.new (input : String) : Except KeyError String := do
  let _ ← (buildCronMutexLeaseKey defaultFleetRootKey input).mapError
    fun source => .namespaceError (.invalidCronKey source)
  return input

def SemaphoreKey.new (input : String) : Except KeyError String := do
  let _ ← (buildSemaphoreSlotsPrefix defaultFleetRootKey input).mapError .namespaceError
  return input

def ThrottlerKey.new (input : String) : Except KeyError String := do
  let _ ← (buildThrottlerStatePrefix defaultFleetRootKey input).mapError .namespaceError
  return input

def RateLimiterKey.new (input : String) : Except KeyError String := do
  let _ ← (buildKeyFromParts [defaultFleetRootKey, fleetThrottlerComponentKey, input]).mapError
    .invalidRateLimiterKey
  return input

def CircuitBreakerKey.new (input : String) : Except KeyError String := do
  let _ ← (buildKeyFromParts [defaultFleetRootKey, fleetThrottlerComponentKey, input]).mapError
    .invalidCircuitBreakerKey
  return input

def OnceKey.new (input : String) : Except KeyError String := do
  let _ ← (buildOnceCompletionPrefix defaultFleetRootKey input).mapError .namespaceError
  let _ ← (buildOnceMutexLeaseKey defaultFleetRootKey input).mapError .namespaceError
  return input

/-- The kind of a handle, with keys that have passed their checks. -/
def checkedPrimitive : Primitive → Except KeyError Primitive
  | .mutex key => return .mutex (← MutexKey.new key)
  | .counter key => return .counter (← CounterKey.new key)
  | .coalescingCache key => return .coalescingCache (← CoalescingCacheKey.new key)
  | .topic key => return .topic (← TopicKey.new key)
  | .subscription topicKey key =>
      return .subscription (← TopicKey.new topicKey) (← SubscriptionKey.new key)
  | .cron key => return .cron (← CronKey.new key)
  | .semaphore key => return .semaphore (← SemaphoreKey.new key)
  | .throttler key => return .throttler (← ThrottlerKey.new key)
  | .rateLimiter key => return .rateLimiter (← RateLimiterKey.new key)
  | .circuitBreaker key => return .circuitBreaker (← CircuitBreakerKey.new key)
  | .once key => return .once (← OnceKey.new key)

end UserKeys

end Paranoid.FleetKeys
