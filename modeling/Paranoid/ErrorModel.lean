import Mathlib.Data.List.Basic

namespace Paranoid.ErrorModel

/-- The error types, with the error type of a caller's task as a parameter where they have
one. A box of an error is an error of its own type. -/
inductive ErrorType
  | other
  | protocol
  | db
  | kv
  | coordination
  | fleet
  | queue
  | bootstrap
  | boxed (error : ErrorType)
  | mutexRun (task : ErrorType)
  | cronRun (task : ErrorType)
  | cronRunHandle (task : ErrorType)
  | onceRun (task : ErrorType)
  | onceTransactionalRun (task : ErrorType)
  | coalescingCacheFetch (compute : ErrorType)
  | subscriptionRun (handler : ErrorType)
  | subscriptionRunHandle (handler : ErrorType)
  deriving DecidableEq

/-- The variants of the Fleet error that keep the coordination error of a validation. -/
inductive FleetCoordinationValidation
  | invalidRootKey
  | invalidMutexKey
  | invalidCoalescingCacheKeyForMutex
  | invalidSubscriptionKeyForPollingMutex
  | invalidCronKey
  | invalidOnceKeyForMutex
  | generatedHolderIdRejected

/-- The variants of the Fleet error that keep the KV error of a validation. -/
inductive FleetKvValidation
  | invalidRootKeyForKv
  | invalidCounterKey
  | invalidCoalescingCacheKeyForValue
  | invalidCoalescingCacheKeyForEpoch
  | invalidTopicKeyForSequence
  | invalidTopicKeyForEvents
  | invalidSubscriptionKeyForCursor
  | invalidSemaphoreKey
  | invalidSemaphoreMaxHoldDuration
  | invalidThrottlerKey
  | invalidRateLimiterKey
  | invalidCircuitBreakerKey
  | invalidThrottlerStateTtl
  | invalidOnceKeyForCompletionMarker

/-- The variants of the Fleet error that keep an error of another crate or module. -/
inductive FleetFailure
  | throttlerProbeHeartbeatTaskFailed
  | holderIdGeneration
  | mutexHeartbeatTaskFailed

/-- The variants of one type that keep no error are one constructor, named plain. -/
inductive ErrorValue : ErrorType → Type
  -- the errors of other crates and of callers, which show no more than their source
  | other : ErrorValue .other
  | otherFrom {t : ErrorType} (source : ErrorValue t) : ErrorValue .other
  | boxed {t : ErrorType} (error : ErrorValue t) : ErrorValue (.boxed t)
  -- ProtocolError
  | incompatible (activeEpoch supportedEpoch : Int) (reason : String) : ErrorValue .protocol
  | state (reason : String) : ErrorValue .protocol
  -- db::Error
  | dbPlain : ErrorValue .db
  | dbProtocol (error : ErrorValue .protocol) : ErrorValue .db
  | dbInvalidDatabaseUrl {t : ErrorType} (source : ErrorValue t) : ErrorValue .db
  | dbConnect {t : ErrorType} (source : ErrorValue t) : ErrorValue .db
  | dbTransaction {t : ErrorType} (source : ErrorValue t) : ErrorValue .db
  | dbQuery (sqlState : Option String) {t : ErrorType} (source : ErrorValue t) : ErrorValue .db
  | dbDatabaseOperationRollbackFailed (operation : String) (operationError : ErrorValue (.boxed .db))
      (rollbackError : ErrorValue (.boxed .db)) : ErrorValue .db
  | dbInvalidIdentifier (error : ErrorValue .other) : ErrorValue .db
  -- kv::Error
  | kvPlain : ErrorValue .kv
  | kvDatabase (error : ErrorValue .db) : ErrorValue .kv
  | kvDatabaseOperationRollbackFailed (operation : String) (operationError : ErrorValue (.boxed .kv))
      (rollbackError : ErrorValue .db) : ErrorValue .kv
  | kvDatabaseOperationRollbackFailedAfterCallerError (operation : String) (rollbackError : ErrorValue .db) : ErrorValue .kv
  | kvCodec (error : ErrorValue .other) : ErrorValue .kv
  -- lease::CoordinationError
  | coordinationPlain : ErrorValue .coordination
  | coordinationTokenGeneration (source : ErrorValue .other) : ErrorValue .coordination
  | coordinationDatabase (error : ErrorValue .db) : ErrorValue .coordination
  | coordinationDatabaseOperationRollbackFailed (operation : String) (operationError : ErrorValue (.boxed .coordination))
      (rollbackError : ErrorValue .db) : ErrorValue .coordination
  -- fleet::Error
  | fleetPlain : ErrorValue .fleet
  | fleetCoordinationValidation (variant : FleetCoordinationValidation) (source : ErrorValue .coordination) : ErrorValue .fleet
  | fleetKvValidation (variant : FleetKvValidation) (source : ErrorValue .kv) : ErrorValue .fleet
  | fleetFailure (variant : FleetFailure) (source : ErrorValue .other) : ErrorValue .fleet
  | fleetMutexGuardStopAndReleaseFailed (stopError releaseError : ErrorValue (.boxed .fleet)) : ErrorValue .fleet
  | fleetKv (error : ErrorValue .kv) : ErrorValue .fleet
  | fleetCoordination (error : ErrorValue .coordination) : ErrorValue .fleet
  | fleetDatabase (error : ErrorValue .db) : ErrorValue .fleet
  | fleetDatabaseOperationRollbackFailed (operation : String) (operationError : ErrorValue (.boxed .fleet))
      (rollbackError : ErrorValue .db) : ErrorValue .fleet
  -- queue::Error
  | queuePlain : ErrorValue .queue
  | queueWorkerOwnerIdGeneration (source : ErrorValue .other) : ErrorValue .queue
  | queueWorkerHeartbeatTaskJoinFailed (source : ErrorValue .other) : ErrorValue .queue
  | queueWorkerHeartbeatFailureAndJobFinalizationFailed
      (heartbeatError finalizationError : ErrorValue (.boxed .queue)) : ErrorValue .queue
  | queueMaintenanceCronRunFailed (cronName : String) (source : ErrorValue (.boxed (.cronRun .queue))) : ErrorValue .queue
  | queueWorkerRuntimeMultipleFailures (failures : List (ErrorValue .queue)) : ErrorValue .queue
  | queueWorkerDatabaseOperationRollbackFailed (operation : String) (operationError : ErrorValue (.boxed .queue))
      (rollbackError : ErrorValue .db) : ErrorValue .queue
  | queueDatabaseOperationRollbackFailed (operation : String) (operationError : ErrorValue (.boxed .queue))
      (rollbackError : ErrorValue .db) : ErrorValue .queue
  | queueWorkerJobPersistenceFailureAndRequeueFailed
      (persistenceError requeueError : ErrorValue (.boxed .queue)) : ErrorValue .queue
  | queueWorkerRuntimeFailureAndClaimedJobCleanupFailed
      (workerError cleanupError : ErrorValue (.boxed .queue)) : ErrorValue .queue
  | queuePayloadJson (source : ErrorValue .other) : ErrorValue .queue
  | queueEnqueueBatchPayloadJson (payloadIndex : Nat) (source : ErrorValue .other) : ErrorValue .queue
  | queueDecodeRow {t : ErrorType} (source : ErrorValue t) : ErrorValue .queue
  | queueDatabase (error : ErrorValue .db) : ErrorValue .queue
  | queueFleet (error : ErrorValue .fleet) : ErrorValue .queue
  | queueJobId (error : ErrorValue .other) : ErrorValue .queue
  -- BootstrapError
  | bootstrapDatabase (error : ErrorValue .db) : ErrorValue .bootstrap
  | bootstrapKv (error : ErrorValue .kv) : ErrorValue .bootstrap
  | bootstrapFleet (error : ErrorValue .fleet) : ErrorValue .bootstrap
  | bootstrapQueue (error : ErrorValue .queue) : ErrorValue .bootstrap
  | bootstrapConcurrentSchemaCreationRace (attempts : Nat) : ErrorValue .bootstrap
  | bootstrapDatabaseOperationRollbackFailed (operation : String) (operationError : ErrorValue (.boxed .bootstrap))
      (rollbackError : ErrorValue (.boxed .db)) : ErrorValue .bootstrap
  -- MutexRunError
  | mutexRunFleet {t : ErrorType} (error : ErrorValue .fleet) : ErrorValue (.mutexRun t)
  | mutexRunFleetAndLeadershipLost {t : ErrorType} (source : ErrorValue .fleet) : ErrorValue (.mutexRun t)
  | mutexRunFleetAndRelease {t : ErrorType} (source releaseError : ErrorValue .fleet) : ErrorValue (.mutexRun t)
  | mutexRunLeadershipLost {t : ErrorType} : ErrorValue (.mutexRun t)
  | mutexRunLeadershipLostAndRelease {t : ErrorType} (releaseError : ErrorValue .fleet) : ErrorValue (.mutexRun t)
  | mutexRunTask {t : ErrorType} (source : ErrorValue t) : ErrorValue (.mutexRun t)
  | mutexRunTaskAndLeadershipLost {t : ErrorType} (source : ErrorValue t) : ErrorValue (.mutexRun t)
  | mutexRunRelease {t : ErrorType} (source : ErrorValue .fleet) : ErrorValue (.mutexRun t)
  | mutexRunTaskAndRelease {t : ErrorType} (source : ErrorValue t) (releaseError : ErrorValue .fleet) : ErrorValue (.mutexRun t)
  -- CronRunError
  | cronRunFleet {t : ErrorType} (error : ErrorValue .fleet) : ErrorValue (.cronRun t)
  | cronRunFleetAndLeadershipLost {t : ErrorType} (source : ErrorValue .fleet) : ErrorValue (.cronRun t)
  | cronRunFleetAndRelease {t : ErrorType} (source releaseError : ErrorValue .fleet) : ErrorValue (.cronRun t)
  | cronRunLeadershipLost {t : ErrorType} : ErrorValue (.cronRun t)
  | cronRunLeadershipLostAndRelease {t : ErrorType} (releaseError : ErrorValue .fleet) : ErrorValue (.cronRun t)
  | cronRunTask {t : ErrorType} (source : ErrorValue t) : ErrorValue (.cronRun t)
  | cronRunTaskAndLeadershipLost {t : ErrorType} (source : ErrorValue t) : ErrorValue (.cronRun t)
  | cronRunRelease {t : ErrorType} (source : ErrorValue .fleet) : ErrorValue (.cronRun t)
  | cronRunTaskAndRelease {t : ErrorType} (source : ErrorValue t) (releaseError : ErrorValue .fleet) : ErrorValue (.cronRun t)
  -- CronRunHandleError
  | cronRunHandleRun {t : ErrorType} (source : ErrorValue (.cronRun t)) : ErrorValue (.cronRunHandle t)
  | cronRunHandleJoin {t : ErrorType} (source : ErrorValue .other) : ErrorValue (.cronRunHandle t)
  -- OnceRunError
  | onceRunFleet {t : ErrorType} (error : ErrorValue .fleet) : ErrorValue (.onceRun t)
  | onceRunTask {t : ErrorType} (source : ErrorValue t) : ErrorValue (.onceRun t)
  | onceRunTaskAndRelease {t : ErrorType} (source : ErrorValue t) (releaseError : ErrorValue .fleet) : ErrorValue (.onceRun t)
  | onceRunTaskSucceededButCompletionFailed {t : ErrorType} (source : ErrorValue .fleet) : ErrorValue (.onceRun t)
  | onceRunTaskSucceededButCompletionAndReleaseFailed {t : ErrorType} (source releaseError : ErrorValue .fleet) :
      ErrorValue (.onceRun t)
  | onceRunRelease {t : ErrorType} (source : ErrorValue .fleet) : ErrorValue (.onceRun t)
  -- OnceTransactionalRunError
  | onceTransactionalRunFleet {t : ErrorType} (error : ErrorValue .fleet) : ErrorValue (.onceTransactionalRun t)
  | onceTransactionalRunTask {t : ErrorType} (source : ErrorValue t) : ErrorValue (.onceTransactionalRun t)
  | onceTransactionalRunTaskAndTransactionRollback {t : ErrorType} (source : ErrorValue t) (rollbackError : ErrorValue .fleet) :
      ErrorValue (.onceTransactionalRun t)
  | onceTransactionalRunTaskAndRelease {t : ErrorType} (source : ErrorValue t) (releaseError : ErrorValue .fleet) :
      ErrorValue (.onceTransactionalRun t)
  | onceTransactionalRunTaskTransactionRollbackAndRelease {t : ErrorType} (source : ErrorValue t)
      (rollbackError releaseError : ErrorValue .fleet) : ErrorValue (.onceTransactionalRun t)
  | onceTransactionalRunTransactionAndRelease {t : ErrorType} (source releaseError : ErrorValue .fleet) :
      ErrorValue (.onceTransactionalRun t)
  | onceTransactionalRunRelease {t : ErrorType} (source : ErrorValue .fleet) : ErrorValue (.onceTransactionalRun t)
  -- CoalescingCacheFetchError
  | coalescingCacheFetchFleet {t : ErrorType} (error : ErrorValue .fleet) : ErrorValue (.coalescingCacheFetch t)
  | coalescingCacheFetchCompute {t : ErrorType} (source : ErrorValue t) : ErrorValue (.coalescingCacheFetch t)
  | coalescingCacheFetchComputeAndRelease {t : ErrorType} (source : ErrorValue t) (releaseError : ErrorValue .fleet) :
      ErrorValue (.coalescingCacheFetch t)
  -- SubscriptionRunError
  | subscriptionRunFleet {t : ErrorType} (error : ErrorValue .fleet) : ErrorValue (.subscriptionRun t)
  | subscriptionRunPollingGuardLost {t : ErrorType} : ErrorValue (.subscriptionRun t)
  | subscriptionRunPollingGuardRelease {t : ErrorType} (source : ErrorValue .fleet) : ErrorValue (.subscriptionRun t)
  | subscriptionRunFleetAndPollingGuardLost {t : ErrorType} (source : ErrorValue .fleet) : ErrorValue (.subscriptionRun t)
  | subscriptionRunFleetAndPollingGuardRelease {t : ErrorType} (source releaseError : ErrorValue .fleet) :
      ErrorValue (.subscriptionRun t)
  | subscriptionRunHandler {t : ErrorType} (source : ErrorValue t) : ErrorValue (.subscriptionRun t)
  | subscriptionRunHandlerAndPollingGuardLost {t : ErrorType} (source : ErrorValue t) : ErrorValue (.subscriptionRun t)
  | subscriptionRunHandlerAndPollingGuardRelease {t : ErrorType} (source : ErrorValue t) (releaseError : ErrorValue .fleet) :
      ErrorValue (.subscriptionRun t)
  | subscriptionRunPollingGuardLostAndRelease {t : ErrorType} (releaseError : ErrorValue .fleet) : ErrorValue (.subscriptionRun t)
  -- SubscriptionRunHandleError
  | subscriptionRunHandleRun {t : ErrorType} (source : ErrorValue (.subscriptionRun t)) : ErrorValue (.subscriptionRunHandle t)
  | subscriptionRunHandleJoin {t : ErrorType} (source : ErrorValue .other) : ErrorValue (.subscriptionRunHandle t)

/-- An error behind a reference to any error. -/
abbrev AnyError : Type := (t : ErrorType) × ErrorValue t

/-- Where the derived `source` of a variant looks: at the field that is its source, or for
a transparent variant at the source of its field. -/
inductive Link
  | none
  | source (error : AnyError)
  | transparent (error : AnyError)

/-- What a variant keeps: what its `source` looks at, and its other fields. -/
structure Fields where
  link : Link
  others : List AnyError

def sourceOf {t : ErrorType} (error : ErrorValue t) (others : List AnyError) : Fields :=
  ⟨.source ⟨t, error⟩, others⟩

def transparentTo {t : ErrorType} (error : ErrorValue t) : Fields := ⟨.transparent ⟨t, error⟩, []⟩

def noError : Fields := ⟨.none, []⟩

def fields : {t : ErrorType} → ErrorValue t → Fields
  | _, .other => noError
  | _, .otherFrom source => sourceOf source []
  -- a box hands on the source of what it holds
  | _, .boxed error => transparentTo error
  | _, .incompatible _ _ _ => noError
  | _, .state _ => noError
  | _, .dbPlain => noError
  | _, .dbProtocol error => sourceOf error []
  | _, .dbInvalidDatabaseUrl source => sourceOf source []
  | _, .dbConnect source => sourceOf source []
  | _, .dbTransaction source => sourceOf source []
  | _, .dbQuery _ source => sourceOf source []
  | _, .dbDatabaseOperationRollbackFailed _ operationError rollbackError =>
      sourceOf operationError [⟨_, rollbackError⟩]
  | _, .dbInvalidIdentifier error => transparentTo error
  | _, .kvPlain => noError
  | _, .kvDatabase error => transparentTo error
  | _, .kvDatabaseOperationRollbackFailed _ operationError rollbackError =>
      sourceOf operationError [⟨_, rollbackError⟩]
  | _, .kvDatabaseOperationRollbackFailedAfterCallerError _ rollbackError =>
      ⟨.none, [⟨_, rollbackError⟩]⟩
  | _, .kvCodec error => transparentTo error
  | _, .coordinationPlain => noError
  | _, .coordinationTokenGeneration source => sourceOf source []
  | _, .coordinationDatabase error => transparentTo error
  | _, .coordinationDatabaseOperationRollbackFailed _ operationError rollbackError =>
      sourceOf operationError [⟨_, rollbackError⟩]
  | _, .fleetPlain => noError
  | _, .fleetCoordinationValidation _ source => sourceOf source []
  | _, .fleetKvValidation _ source => sourceOf source []
  | _, .fleetFailure _ source => sourceOf source []
  | _, .fleetMutexGuardStopAndReleaseFailed stopError releaseError =>
      ⟨.none, [⟨_, stopError⟩, ⟨_, releaseError⟩]⟩
  | _, .fleetKv error => transparentTo error
  | _, .fleetCoordination error => transparentTo error
  | _, .fleetDatabase error => transparentTo error
  | _, .fleetDatabaseOperationRollbackFailed _ operationError rollbackError =>
      sourceOf operationError [⟨_, rollbackError⟩]
  | _, .queuePlain => noError
  | _, .queueWorkerOwnerIdGeneration source => sourceOf source []
  | _, .queueWorkerHeartbeatTaskJoinFailed source => sourceOf source []
  | _, .queueWorkerHeartbeatFailureAndJobFinalizationFailed heartbeatError finalizationError =>
      ⟨.none, [⟨_, heartbeatError⟩, ⟨_, finalizationError⟩]⟩
  | _, .queueMaintenanceCronRunFailed _ source => sourceOf source []
  | _, .queueWorkerRuntimeMultipleFailures failures => ⟨.none, failures.map fun failure => ⟨_, failure⟩⟩
  | _, .queueWorkerDatabaseOperationRollbackFailed _ operationError rollbackError =>
      sourceOf operationError [⟨_, rollbackError⟩]
  | _, .queueDatabaseOperationRollbackFailed _ operationError rollbackError =>
      sourceOf operationError [⟨_, rollbackError⟩]
  | _, .queueWorkerJobPersistenceFailureAndRequeueFailed persistenceError requeueError =>
      ⟨.none, [⟨_, persistenceError⟩, ⟨_, requeueError⟩]⟩
  | _, .queueWorkerRuntimeFailureAndClaimedJobCleanupFailed workerError cleanupError =>
      ⟨.none, [⟨_, workerError⟩, ⟨_, cleanupError⟩]⟩
  | _, .queuePayloadJson source => sourceOf source []
  | _, .queueEnqueueBatchPayloadJson _ source => sourceOf source []
  | _, .queueDecodeRow source => sourceOf source []
  | _, .queueDatabase error => transparentTo error
  | _, .queueFleet error => transparentTo error
  | _, .queueJobId error => transparentTo error
  | _, .bootstrapDatabase error => transparentTo error
  | _, .bootstrapKv error => transparentTo error
  | _, .bootstrapFleet error => transparentTo error
  | _, .bootstrapQueue error => transparentTo error
  | _, .bootstrapConcurrentSchemaCreationRace _ => noError
  -- neither field of this one is marked as the source
  | _, .bootstrapDatabaseOperationRollbackFailed _ operationError rollbackError =>
      ⟨.none, [⟨_, operationError⟩, ⟨_, rollbackError⟩]⟩
  | _, .mutexRunFleet error => transparentTo error
  | _, .mutexRunFleetAndLeadershipLost source => sourceOf source []
  | _, .mutexRunFleetAndRelease source releaseError => sourceOf source [⟨_, releaseError⟩]
  | _, .mutexRunLeadershipLost => noError
  | _, .mutexRunLeadershipLostAndRelease releaseError => sourceOf releaseError []
  | _, .mutexRunTask source => sourceOf source []
  | _, .mutexRunTaskAndLeadershipLost source => sourceOf source []
  | _, .mutexRunRelease source => sourceOf source []
  | _, .mutexRunTaskAndRelease source releaseError => sourceOf source [⟨_, releaseError⟩]
  | _, .cronRunFleet error => transparentTo error
  | _, .cronRunFleetAndLeadershipLost source => sourceOf source []
  | _, .cronRunFleetAndRelease source releaseError => sourceOf source [⟨_, releaseError⟩]
  | _, .cronRunLeadershipLost => noError
  | _, .cronRunLeadershipLostAndRelease releaseError => sourceOf releaseError []
  | _, .cronRunTask source => sourceOf source []
  | _, .cronRunTaskAndLeadershipLost source => sourceOf source []
  | _, .cronRunRelease source => sourceOf source []
  | _, .cronRunTaskAndRelease source releaseError => sourceOf source [⟨_, releaseError⟩]
  | _, .cronRunHandleRun source => transparentTo source
  | _, .cronRunHandleJoin source => sourceOf source []
  | _, .onceRunFleet error => transparentTo error
  | _, .onceRunTask source => sourceOf source []
  | _, .onceRunTaskAndRelease source releaseError => sourceOf source [⟨_, releaseError⟩]
  | _, .onceRunTaskSucceededButCompletionFailed source => sourceOf source []
  | _, .onceRunTaskSucceededButCompletionAndReleaseFailed source releaseError =>
      sourceOf source [⟨_, releaseError⟩]
  | _, .onceRunRelease source => sourceOf source []
  | _, .onceTransactionalRunFleet error => transparentTo error
  | _, .onceTransactionalRunTask source => sourceOf source []
  | _, .onceTransactionalRunTaskAndTransactionRollback source rollbackError =>
      sourceOf source [⟨_, rollbackError⟩]
  | _, .onceTransactionalRunTaskAndRelease source releaseError => sourceOf source [⟨_, releaseError⟩]
  | _, .onceTransactionalRunTaskTransactionRollbackAndRelease source rollbackError releaseError =>
      sourceOf source [⟨_, rollbackError⟩, ⟨_, releaseError⟩]
  | _, .onceTransactionalRunTransactionAndRelease source releaseError =>
      sourceOf source [⟨_, releaseError⟩]
  | _, .onceTransactionalRunRelease source => sourceOf source []
  | _, .coalescingCacheFetchFleet error => transparentTo error
  | _, .coalescingCacheFetchCompute source => sourceOf source []
  | _, .coalescingCacheFetchComputeAndRelease source releaseError => sourceOf source [⟨_, releaseError⟩]
  | _, .subscriptionRunFleet error => transparentTo error
  | _, .subscriptionRunPollingGuardLost => noError
  | _, .subscriptionRunPollingGuardRelease source => sourceOf source []
  | _, .subscriptionRunFleetAndPollingGuardLost source => sourceOf source []
  | _, .subscriptionRunFleetAndPollingGuardRelease source releaseError =>
      sourceOf source [⟨_, releaseError⟩]
  | _, .subscriptionRunHandler source => sourceOf source []
  | _, .subscriptionRunHandlerAndPollingGuardLost source => sourceOf source []
  | _, .subscriptionRunHandlerAndPollingGuardRelease source releaseError =>
      sourceOf source [⟨_, releaseError⟩]
  | _, .subscriptionRunPollingGuardLostAndRelease releaseError => sourceOf releaseError []
  | _, .subscriptionRunHandleRun source => transparentTo source
  | _, .subscriptionRunHandleJoin source => sourceOf source []

/-- The errors that a link leads to. -/
def Link.errors : Link → List AnyError
  | none => []
  | source error => [error]
  | transparent error => [error]

/-- Everything an error keeps. -/
def kept (error : AnyError) : List AnyError := (fields error.2).link.errors ++ (fields error.2).others

theorem sizeOf_kept_lt (error : AnyError) :
    ∀ keptError ∈ kept error, sizeOf keptError.2 < sizeOf error.2 := by
  obtain ⟨t, value⟩ := error
  cases value
  case queueWorkerRuntimeMultipleFailures failures =>
    intro keptError h
    obtain ⟨failure, hfailure, rfl⟩ := List.mem_map.1 h
    have hsize := List.sizeOf_lt_of_mem hfailure
    simp only [ErrorValue.queueWorkerRuntimeMultipleFailures.sizeOf_spec]
    omega
  all_goals simp [kept, fields, sourceOf, transparentTo, noError, Link.errors] <;> omega

end Paranoid.ErrorModel
