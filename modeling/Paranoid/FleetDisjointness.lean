import Paranoid.FleetNamespaces

namespace Paranoid.FleetDisjointness

open KvModel KvKeys FleetNamespaces Postgres

/-- The word after the root in all keys of a kind of handle. -/
def component : Primitive → String
  | .mutex _ => fleetMutexComponentKey
  | .counter _ => fleetCounterComponentKey
  | .coalescingCache _ => fleetCacheComponentKey
  | .topic _ | .subscription _ _ => fleetTopicComponentKey
  | .cron _ => fleetCronComponentKey
  | .semaphore _ => fleetSemaphoreComponentKey
  | .throttler _ | .rateLimiter _ | .circuitBreaker _ => fleetThrottlerComponentKey
  | .once _ => fleetOnceComponentKey

/-- The parts after that word under which a handle writes. -/
def kvTails : Primitive → List (List String)
  | .counter key => [[key]]
  | .coalescingCache key =>
      [[key, coalescingCacheValueComponentKey], [key, coalescingCacheEpochComponentKey]]
  | .topic key => [[key, topicSequenceComponentKey], [key, topicEventsComponentKey]]
  | .subscription topicKey key =>
      [[topicKey, topicSubscriptionsComponentKey, key, topicCursorComponentKey]]
  | .semaphore key => [[fleetSemaphoreSlotsComponentKey, key]]
  | .throttler key | .rateLimiter key | .circuitBreaker key => [[key]]
  | .once key => [[fleetOnceCompletionComponentKey, key]]
  | .mutex _ | .cron _ => []

def leaseTail : Primitive → Option (List String)
  | .mutex key | .cron key => some [key]
  | .coalescingCache key => some [key, coalescingCacheMutexComponentKey]
  | .subscription topicKey key =>
      some [topicKey, topicSubscriptionsComponentKey, key, topicPollingMutexComponentKey]
  | .once key => some [fleetOnceMutexComponentKey, key]
  | _ => none

/-- The throttler that a handle is, or is built on. -/
def throttlerKey : Primitive → Option String
  | .throttler key | .rateLimiter key | .circuitBreaker key => some key
  | _ => none

def topicKey : Primitive → Option String
  | .topic key | .subscription key _ => some key
  | _ => none

/-- A subscription reads a row among the events of a topic, whose handle the other is,
or which the other subscribes to as well. -/
def ReadsEvents (rootKey : String) (reader other : Primitive) (mode : Mode) (row : Key) : Prop :=
  mode = .read ∧ ∃ topic key, reader = .subscription topic key ∧ topicKey other = some topic ∧
    Under [rootKey, fleetTopicComponentKey, topic, topicEventsComponentKey] row.text

variable {rootKey otherRoot : String} {primitive other : Primitive} {handle otherHandle : Handle}

section Ownership

variable {mode : Mode} {access : Access} {row : Key}

theorem under_of_covers {parts : List String}
    {keyPrefix : KeyPrefix} (hstart : Under parts keyPrefix.text)
    (h : (Access.under keyPrefix).Covers row) : Under parts row.text := by
  rw [Access.Covers, like_prefixLikePattern, KeyPrefix.containsKey, List.isPrefixOf_iff_prefix] at h
  exact ⟨hstart.separable, hstart.starts.trans h⟩

theorem newTopic_eq_ok {key : String} {topic : Topic} (h : newTopic rootKey key = .ok topic) :
    topic.rootKey = rootKey ∧ topic.key = key ∧
      Under [rootKey, fleetTopicComponentKey, key, topicSequenceComponentKey] topic.sequenceItem.text ∧
      Under [rootKey, fleetTopicComponentKey, key, topicEventsComponentKey] topic.eventItem.text := by
  rw [newTopic] at h
  obtain ⟨sequenceItem, hsequence, h⟩ := bind_eq_ok.1 h
  obtain ⟨eventItem, hevent, h⟩ := bind_eq_ok.1 h
  cases h
  exact ⟨rfl, rfl, under_of_buildKeyFromParts (mapError_eq_ok.1 hsequence),
    under_of_buildKeyFromParts (mapError_eq_ok.1 hevent)⟩

theorem subscribe_eq_ok {topic : Topic} {key : String} {subscription : Subscription}
    (h : topic.subscribe key = .ok subscription) :
    subscription.eventItem = topic.eventItem ∧
      Under [topic.rootKey, fleetTopicComponentKey, topic.key, topicSubscriptionsComponentKey, key,
        topicCursorComponentKey] subscription.cursorItem.text ∧
      Under [topic.rootKey, fleetTopicComponentKey, topic.key, topicSubscriptionsComponentKey, key,
        topicPollingMutexComponentKey] subscription.pollingMutex.leaseKey.text := by
  rw [Topic.subscribe] at h
  obtain ⟨cursorItem, hcursor, h⟩ := bind_eq_ok.1 h
  obtain ⟨leaseKey, hlease, h⟩ := bind_eq_ok.1 h
  cases h
  exact ⟨rfl, under_of_buildKeyFromParts (mapError_eq_ok.1 hcursor),
    under_of_lease_fromParts (mapError_eq_ok.1 hlease)⟩

theorem newCounter_eq_ok {key : String} {counter : Counter} (h : newCounter rootKey key = .ok counter) :
    Under [rootKey, fleetCounterComponentKey, key] counter.item.text := by
  rw [newCounter] at h
  obtain ⟨item, hitem, h⟩ := bind_eq_ok.1 h
  cases h
  exact under_of_buildKeyFromParts (mapError_eq_ok.1 hitem)

theorem newCoalescingCache_eq_ok {key : String} {cache : CoalescingCache}
    (h : newCoalescingCache rootKey key = .ok cache) :
    cache.rootKey = rootKey ∧ cache.key = key ∧
      Under [rootKey, fleetCacheComponentKey, key,
        coalescingCacheValueComponentKey] cache.valueItem.text ∧
      Under [rootKey, fleetCacheComponentKey, key,
        coalescingCacheEpochComponentKey] cache.epochItem.text := by
  rw [newCoalescingCache] at h
  obtain ⟨valueItem, hvalue, h⟩ := bind_eq_ok.1 h
  obtain ⟨epochItem, hepoch, h⟩ := bind_eq_ok.1 h
  obtain ⟨_, -, h⟩ := bind_eq_ok.1 h
  cases h
  exact ⟨rfl, rfl, under_of_buildKeyFromParts (mapError_eq_ok.1 hvalue),
    under_of_buildKeyFromParts (mapError_eq_ok.1 hepoch)⟩

theorem newSemaphore_eq_ok {key : String} {semaphore : Semaphore}
    (h : newSemaphore rootKey key = .ok semaphore) :
    Under [rootKey, fleetSemaphoreComponentKey,
      fleetSemaphoreSlotsComponentKey, key] semaphore.slotsItem.text := by
  rw [newSemaphore] at h
  obtain ⟨slotsItem, hslots, h⟩ := bind_eq_ok.1 h
  cases h
  exact under_of_buildKeyFromParts (mapError_eq_ok.1 hslots)

theorem newOnce_eq_ok {key : String} {once : Once} (h : newOnce rootKey key = .ok once) :
    Under [rootKey, fleetOnceComponentKey,
      fleetOnceCompletionComponentKey, key] once.completionItem.text ∧
      Under [rootKey, fleetOnceComponentKey,
        fleetOnceMutexComponentKey, key] once.mutex.leaseKey.text := by
  rw [newOnce] at h
  obtain ⟨completionItem, hcompletion, h⟩ := bind_eq_ok.1 h
  obtain ⟨leaseKey, hlease, h⟩ := bind_eq_ok.1 h
  cases h
  exact ⟨under_of_buildKeyFromParts (mapError_eq_ok.1 hcompletion),
    under_of_lease_fromParts (mapError_eq_ok.1 hlease)⟩

theorem newThrottler_eq_ok {key : String} {throttler : Throttler}
    (h : newThrottler rootKey key = .ok throttler) :
    Under [rootKey, fleetThrottlerComponentKey, key] throttler.stateItem.text := by
  rw [newThrottler] at h
  obtain ⟨stateItem, hstate, h⟩ := bind_eq_ok.1 h
  cases h
  exact under_of_buildKeyFromParts (mapError_eq_ok.1 hstate)

theorem throttler_covers {key : String} {throttler : Throttler}
    (h : newThrottler rootKey key = .ok throttler)
    (haccess : KvAccess (.throttler throttler) mode access) (hrow : access.Covers row) :
    Under [rootKey, fleetThrottlerComponentKey, key] row.text := by
  cases haccess with
  | throttlerState hkey =>
      cases hrow
      exact under_of_buildKeyFromPrefixAndParts (newThrottler_eq_ok h) hkey

/-- What a handle's operations address lies under its own parts, or among the events
that it reads as a subscription. -/
theorem kv_owned (h : newHandle rootKey primitive = .ok handle) (haccess : KvAccess handle mode access)
    (hrow : access.Covers row) :
    (∃ tail ∈ kvTails primitive, Under (rootKey :: component primitive :: tail) row.text) ∨
      mode = .read ∧ ∃ topic key, primitive = .subscription topic key ∧
        Under [rootKey, fleetTopicComponentKey, topic, topicEventsComponentKey] row.text := by
  cases primitive with
  | mutex key =>
      obtain ⟨mutex, hmutex, h⟩ := bind_eq_ok.1 h
      cases h
      cases haccess
  | counter key =>
      obtain ⟨counter, hcounter, h⟩ := bind_eq_ok.1 h
      cases h
      cases haccess with
      | counterValue hkey =>
          cases hrow
          exact .inl ⟨_, List.mem_singleton_self _,
            under_of_buildKeyFromPrefixAndParts (newCounter_eq_ok hcounter) hkey⟩
  | coalescingCache key =>
      obtain ⟨cache, hcache, h⟩ := bind_eq_ok.1 h
      cases h
      obtain ⟨-, -, hvalue, hepoch⟩ := newCoalescingCache_eq_ok hcache
      cases haccess with
      | cacheValue hparts hkey =>
          cases hrow
          exact .inl ⟨_, List.mem_cons_self, under_of_buildKeyFromPrefixAndParts hvalue hkey⟩
      | cacheEpoch hkey =>
          cases hrow
          exact .inl ⟨_, List.mem_cons_of_mem _ List.mem_cons_self,
            under_of_buildKeyFromPrefixAndParts hepoch hkey⟩
  | topic key =>
      obtain ⟨topic, htopic, h⟩ := bind_eq_ok.1 h
      cases h
      obtain ⟨-, -, hsequence, hevent⟩ := newTopic_eq_ok htopic
      cases haccess with
      | topicSequence hkey =>
          cases hrow
          exact .inl ⟨_, List.mem_cons_self, under_of_buildKeyFromPrefixAndParts hsequence hkey⟩
      | topicEvent eventKeySuffix hkey =>
          cases hrow
          exact .inl ⟨_, List.mem_cons_of_mem _ List.mem_cons_self,
            under_of_buildKeyFromPrefixAndParts hevent hkey⟩
      | topicPurge =>
          exact .inl ⟨_, List.mem_cons_of_mem _ List.mem_cons_self, under_of_covers hevent hrow⟩
  | subscription topicKey key =>
      obtain ⟨topic, htopic, h⟩ := bind_eq_ok.1 h
      obtain ⟨subscription, hsubscription, h⟩ := bind_eq_ok.1 h
      cases h
      obtain ⟨rfl, rfl, -, hevent⟩ := newTopic_eq_ok htopic
      obtain ⟨heq, hcursor, -⟩ := subscribe_eq_ok hsubscription
      cases haccess with
      | subscriptionEvents => exact .inr ⟨rfl, _, _, rfl, under_of_covers hevent (heq ▸ hrow)⟩
      | subscriptionCursor hkey =>
          cases hrow
          exact .inl ⟨_, List.mem_singleton_self _, under_of_buildKeyFromPrefixAndParts hcursor hkey⟩
  | cron key =>
      obtain ⟨cron, hcron, h⟩ := bind_eq_ok.1 h
      cases h
      cases haccess
  | semaphore key =>
      obtain ⟨semaphore, hsemaphore, h⟩ := bind_eq_ok.1 h
      cases h
      have hslots := newSemaphore_eq_ok hsemaphore
      cases haccess with
      | semaphoreSlot slotSuffix hkey =>
          cases hrow
          exact .inl ⟨_, List.mem_singleton_self _, under_of_buildKeyFromPrefixAndParts hslots hkey⟩
      | semaphoreReset => exact .inl ⟨_, List.mem_singleton_self _, under_of_covers hslots hrow⟩
  | throttler key =>
      obtain ⟨throttler, hthrottler, h⟩ := bind_eq_ok.1 h
      cases h
      exact .inl ⟨_, List.mem_singleton_self _, throttler_covers hthrottler haccess hrow⟩
  | rateLimiter key =>
      obtain ⟨limiter, hlimiter, h⟩ := bind_eq_ok.1 h
      cases h
      obtain ⟨throttler, hthrottler, hlimiter⟩ := bind_eq_ok.1 hlimiter
      cases hlimiter
      cases haccess with
      | rateLimiter haccess =>
          exact .inl ⟨_, List.mem_singleton_self _, throttler_covers hthrottler haccess hrow⟩
  | circuitBreaker key =>
      obtain ⟨breaker, hbreaker, h⟩ := bind_eq_ok.1 h
      cases h
      obtain ⟨throttler, hthrottler, hbreaker⟩ := bind_eq_ok.1 hbreaker
      cases hbreaker
      cases haccess with
      | circuitBreaker haccess =>
          exact .inl ⟨_, List.mem_singleton_self _, throttler_covers hthrottler haccess hrow⟩
  | once key =>
      obtain ⟨once, honce, h⟩ := bind_eq_ok.1 h
      cases h
      cases haccess with
      | onceDone hkey =>
          cases hrow
          exact .inl ⟨_, List.mem_singleton_self _,
            under_of_buildKeyFromPrefixAndParts (newOnce_eq_ok honce).1 hkey⟩

theorem lease_owned {leaseKey : LeaseKey} (h : newHandle rootKey primitive = .ok handle)
    (haccess : LeaseAccess handle leaseKey) :
    ∃ tail, leaseTail primitive = some tail ∧
      Under (rootKey :: component primitive :: tail) leaseKey.text := by
  cases primitive with
  | mutex key =>
      obtain ⟨mutex, hmutex, h⟩ := bind_eq_ok.1 h
      cases h
      obtain ⟨key', hkey, hmutex⟩ := bind_eq_ok.1 hmutex
      cases hmutex
      cases haccess
      exact ⟨_, rfl, under_of_lease_fromParts (mapError_eq_ok.1 hkey)⟩
  | coalescingCache key =>
      obtain ⟨cache, hcache, h⟩ := bind_eq_ok.1 h
      cases h
      obtain ⟨rfl, rfl, -, -⟩ := newCoalescingCache_eq_ok hcache
      cases haccess with
      | cache hparts hkey =>
          obtain ⟨hseparable, hstarts⟩ := under_of_lease_fromParts hkey
          refine ⟨_, rfl, fun part hpart => hseparable part (List.mem_append_left _ hpart), ?_⟩
          rw [List.map_append, SeparatedParts.joined_append] at hstarts
          exact (List.prefix_append _ _).trans hstarts
  | subscription topicKey key =>
      obtain ⟨topic, htopic, h⟩ := bind_eq_ok.1 h
      obtain ⟨subscription, hsubscription, h⟩ := bind_eq_ok.1 h
      cases h
      obtain ⟨rfl, rfl, -, -⟩ := newTopic_eq_ok htopic
      cases haccess
      exact ⟨_, rfl, (subscribe_eq_ok hsubscription).2.2⟩
  | cron key =>
      obtain ⟨cron, hcron, h⟩ := bind_eq_ok.1 h
      cases h
      obtain ⟨key', hkey, hcron⟩ := bind_eq_ok.1 hcron
      cases hcron
      cases haccess
      exact ⟨_, rfl, under_of_lease_fromParts (mapError_eq_ok.1 hkey)⟩
  | once key =>
      obtain ⟨once, honce, h⟩ := bind_eq_ok.1 h
      cases h
      cases haccess
      exact ⟨_, rfl, (newOnce_eq_ok honce).2⟩
  | counter key | topic key | semaphore key | throttler key | rateLimiter key | circuitBreaker key =>
      obtain ⟨_, -, h⟩ := bind_eq_ok.1 h
      cases h
      cases haccess

end Ownership

section Separation

variable {tail otherTail : List String} {text : String}

/-- Two handles whose parts lie under one text have one root and one component. -/
theorem tails_comparable (h : Under (rootKey :: component primitive :: tail) text)
    (h' : Under (otherRoot :: component other :: otherTail) text) :
    rootKey = otherRoot ∧ component primitive = component other ∧
      (tail <+: otherTail ∨ otherTail <+: tail) := by
  rcases under_comparable h h' with hle | hle
  · simp only [List.cons_prefix_cons] at hle
    exact ⟨hle.1, hle.2.1, .inl hle.2.2⟩
  · simp only [List.cons_prefix_cons] at hle
    exact ⟨hle.1.symm, hle.2.1.symm, .inr hle.2.2⟩

theorem kvTails_le (hcomponent : component primitive = component other)
    (htail : tail ∈ kvTails primitive)
    (hother : otherTail ∈ kvTails other) (hle : tail <+: otherTail) :
    primitive = other ∨ ∃ key, throttlerKey primitive = some key ∧ throttlerKey other = some key := by
  cases primitive <;> cases other <;>
    simp only [component, fleetMutexComponentKey, fleetCounterComponentKey, fleetCacheComponentKey,
      fleetTopicComponentKey, fleetCronComponentKey,
        fleetSemaphoreComponentKey, fleetThrottlerComponentKey,
      fleetOnceComponentKey, String.reduceEq] at hcomponent
  all_goals
    simp only [kvTails, List.mem_cons, List.not_mem_nil, or_false] at htail hother <;>
      rcases htail with rfl | rfl <;> rcases hother with rfl | rfl <;>
      simp_all [throttlerKey, topicSequenceComponentKey,
        topicEventsComponentKey, topicSubscriptionsComponentKey]

theorem kvTails_unique (hcomponent : component primitive = component other)
    (htail : tail ∈ kvTails primitive)
    (hother : otherTail ∈ kvTails other) (hle : tail <+: otherTail ∨ otherTail <+: tail) :
    primitive = other ∨ ∃ key, throttlerKey primitive = some key ∧ throttlerKey other = some key := by
  rcases hle with hle | hle
  · exact kvTails_le hcomponent htail hother hle
  · rcases kvTails_le hcomponent.symm hother htail hle with heq | ⟨key, hkey, hkey'⟩
    · exact .inl heq.symm
    · exact .inr ⟨key, hkey', hkey⟩

theorem leaseTail_le (hcomponent : component primitive = component other)
    (htail : leaseTail primitive = some tail)
    (hother : leaseTail other = some otherTail) (hle : tail <+: otherTail) : primitive = other := by
  cases primitive <;> cases other <;>
    simp only [component, fleetMutexComponentKey, fleetCounterComponentKey, fleetCacheComponentKey,
      fleetTopicComponentKey, fleetCronComponentKey,
        fleetSemaphoreComponentKey, fleetThrottlerComponentKey,
      fleetOnceComponentKey, String.reduceEq] at hcomponent
  all_goals
    simp only [leaseTail, reduceCtorEq, Option.some.injEq] at htail hother
      <;> subst htail <;> subst hother <;> simp_all

theorem leaseTail_unique (hcomponent : component primitive = component other)
    (htail : leaseTail primitive = some tail)
    (hother : leaseTail other = some otherTail) (hle : tail <+: otherTail ∨ otherTail <+: tail) :
    primitive = other := by
  rcases hle with hle | hle
  · exact leaseTail_le hcomponent htail hother hle
  · exact (leaseTail_le hcomponent.symm hother htail hle).symm

/-- Only the handles of a topic write among its events. -/
theorem events_topicKey {topic : String} (hcomponent : fleetTopicComponentKey = component other)
    (hother : otherTail ∈ kvTails other)
    (hle : [topic, topicEventsComponentKey] <+: otherTail ∨
      otherTail <+: [topic, topicEventsComponentKey]) :
    topicKey other = some topic := by
  cases other with
  | topic key =>
      simp only [kvTails, List.mem_cons, List.not_mem_nil, or_false] at hother
      rcases hother with rfl | rfl <;> rcases hle with hle | hle <;> simp_all [topicKey]
  | subscription key subscriptionKey =>
      simp only [kvTails, List.mem_cons, List.not_mem_nil, or_false] at hother
      subst hother
      rcases hle with hle | hle <;> simp_all [topicKey]
  | _ =>
      simp [component, fleetTopicComponentKey, fleetMutexComponentKey, fleetCounterComponentKey,
        fleetCacheComponentKey, fleetCronComponentKey,
        fleetSemaphoreComponentKey, fleetThrottlerComponentKey,
      fleetOnceComponentKey] at hcomponent

theorem readsEvents_of_covers {topic key : String}
    {mode otherMode : Mode} {otherAccess : Access} {row : Key}
    (hmode : mode = .read) (hreader : primitive = .subscription topic key)
    (hevents : Under [rootKey, fleetTopicComponentKey, topic, topicEventsComponentKey] row.text)
    (h' : newHandle otherRoot other = .ok otherHandle)
    (haccess : KvAccess otherHandle otherMode otherAccess)
    (hrow : otherAccess.Covers row) :
    rootKey = otherRoot ∧ ReadsEvents rootKey primitive other mode row := by
  subst hreader
  rcases kv_owned h' haccess hrow with ⟨tail, htail, hunder⟩ | ⟨-, otherTopic, otherKey, rfl, hunder⟩
  · have hreads : Under (rootKey :: component (.subscription topic key) ::
      [topic, topicEventsComponentKey]) row.text :=
      hevents
    obtain ⟨hroot, hcomponent, hle⟩ := tails_comparable hreads hunder
    exact ⟨hroot, hmode, topic, key, rfl, events_topicKey hcomponent htail hle, hevents⟩
  · rcases under_comparable hevents hunder with hle | hle
    · simp only [List.cons_prefix_cons] at hle
      exact ⟨hle.1, hmode, topic, key, rfl, by rw [topicKey, hle.2.2.1], hevents⟩
    · simp only [List.cons_prefix_cons] at hle
      exact ⟨hle.1.symm, hmode, topic, key, rfl, by rw [topicKey, hle.2.2.1], hevents⟩

end Separation

/-- The rows of two handles are disjoint, but for the state of one throttler that both
are or are built on, and for the events that a subscription reads. -/
theorem namespaces_disjoint (hne : (rootKey, primitive) ≠ (otherRoot, other))
    (h : newHandle rootKey primitive = .ok handle) (h' : newHandle otherRoot other = .ok otherHandle) :
    (∀ mode access otherMode otherAccess row, KvAccess handle mode access → access.Covers row →
      KvAccess otherHandle otherMode otherAccess → otherAccess.Covers row →
      rootKey = otherRoot ∧
        ((∃ key, throttlerKey primitive = some key ∧ throttlerKey other = some key) ∨
        ReadsEvents rootKey primitive other mode row ∨
          ReadsEvents rootKey other primitive otherMode row)) ∧
    ∀ leaseKey, LeaseAccess handle leaseKey → ¬LeaseAccess otherHandle leaseKey := by
  refine ⟨fun mode access otherMode otherAccess row haccess hrow haccess' hrow' => ?_,
    fun leaseKey hlease hlease' => ?_⟩
  · rcases kv_owned h haccess hrow with ⟨tail, htail, hunder⟩ | ⟨hmode, topic, key, hreader, hevents⟩
    · rcases kv_owned h' haccess' hrow' with ⟨otherTail, hother, hunder'⟩ |
        ⟨hmode', topic, key, hreader, hevents⟩
      · obtain ⟨rfl, hcomponent, hle⟩ := tails_comparable hunder hunder'
        rcases kvTails_unique hcomponent htail hother hle with rfl | hthrottler
        · exact absurd rfl hne
        · exact ⟨rfl, .inl hthrottler⟩
      · obtain ⟨rfl, hreads⟩ := readsEvents_of_covers hmode' hreader hevents h haccess hrow
        exact ⟨rfl, .inr (.inr hreads)⟩
    · obtain ⟨hroot, hreads⟩ := readsEvents_of_covers hmode hreader hevents h' haccess' hrow'
      exact ⟨hroot, .inr (.inl hreads)⟩
  · obtain ⟨tail, htail, hunder⟩ := lease_owned h hlease
    obtain ⟨otherTail, hother, hunder'⟩ := lease_owned h' hlease'
    obtain ⟨rfl, hcomponent, hle⟩ := tails_comparable hunder hunder'
    exact hne (by rw [leaseTail_unique hcomponent htail hother hle])

def apiState : KeyPrefix := ⟨"__paranoid_fleet::throttler::api::", by decide⟩

def apiRow : Key := ⟨"__paranoid_fleet::throttler::api::state::", by decide⟩

def apiThrottler : Throttler := ⟨"api", apiState⟩

def apiLimiter : RateLimiter := ⟨"api", apiThrottler⟩

def apiCounter : Counter := ⟨"api", ⟨"__paranoid_fleet::counter::api::", by decide⟩⟩

theorem newHandle_apiThrottler :
    newHandle "__paranoid_fleet" (.throttler "api") = .ok (.throttler apiThrottler) := by
  rfl

theorem namespaces_disjoint_counter :
    ¬∃ mode access otherMode otherAccess row, KvAccess (.counter apiCounter) mode access ∧
      access.Covers row ∧
      KvAccess (.throttler apiThrottler) otherMode otherAccess ∧ otherAccess.Covers row := by
  rintro ⟨mode, access, otherMode, otherAccess, row, haccess, hrow, haccess', hrow'⟩
  have hcounter : newHandle "__paranoid_fleet" (.counter "api") = .ok (.counter apiCounter) := by rfl
  obtain ⟨-, hshared⟩ := (namespaces_disjoint (by decide) hcounter newHandle_apiThrottler).1 _ _ _ _ _
    haccess hrow haccess' hrow'
  rcases hshared with ⟨key, hkey, -⟩ | ⟨-, topic, key, hreader, -⟩ | ⟨-, topic, key, hreader, -⟩
  · cases hkey
  · cases hreader
  · cases hreader

/-- A throttler and a rate limiter of one key write the same row. -/
theorem limiter_shares_throttler_state :
    ¬∀ (rootKey otherRoot : String) (primitive other : Primitive) (handle otherHandle : Handle),
      (rootKey, primitive) ≠ (otherRoot, other) → newHandle rootKey primitive = .ok handle →
      newHandle otherRoot other = .ok otherHandle →
      ∀ mode access otherMode otherAccess row, KvAccess handle mode access → access.Covers row →
        KvAccess otherHandle otherMode otherAccess → otherAccess.Covers row →
        ReadsEvents rootKey primitive other mode row ∨
          ReadsEvents rootKey other primitive otherMode row := by
  intro hdisjoint
  have hlimiter : newHandle "__paranoid_fleet" (.rateLimiter "api") =
    .ok (.rateLimiter apiLimiter) := by rfl
  have hrow : KvAccess (.throttler apiThrottler) .write (.row apiRow) := .throttlerState (by rfl)
  rcases hdisjoint _ _ _ _ _ _ (by decide) newHandle_apiThrottler hlimiter .write (.row apiRow) .write (.row apiRow)
    apiRow hrow rfl (.rateLimiter hrow) rfl with ⟨hmode, -⟩ | ⟨hmode, -⟩
  · cases hmode
  · cases hmode

end Paranoid.FleetDisjointness
