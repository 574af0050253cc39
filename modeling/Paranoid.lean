import Paranoid.Base64Url
import Paranoid.Binary64
import Paranoid.BulkRetry
import Paranoid.ByteaText
import Paranoid.CacheEpochs
import Paranoid.CacheInvalidation
import Paranoid.CancellationSignal
import Paranoid.CheckConstraints
import Paranoid.CookieEmission
import Paranoid.CookieModel
import Paranoid.CookieNames
import Paranoid.CronFencing
import Paranoid.CsrfLifecycle
import Paranoid.CsrfModel
import Paranoid.CsrfReading
import Paranoid.CsrfRequests
import Paranoid.CsrfTokens
import Paranoid.DecimalText
import Paranoid.EncryptedCookies
import Paranoid.EnvelopeFormat
import Paranoid.EnvelopeRotation
import Paranoid.EnvelopeSealing
import Paranoid.FleetDisjointness
import Paranoid.FleetKeys
import Paranoid.FleetOperations
import Paranoid.InstanceKeys
import Paranoid.IpAddresses
import Paranoid.ItemRuns
import Paranoid.JsonText
import Paranoid.KeysetContexts
import Paranoid.KvCounter
import Paranoid.KvPrefixes
import Paranoid.KvRuns
import Paranoid.KvScans
import Paranoid.LeaseAuthority
import Paranoid.LeaseFencing
import Paranoid.LiteralLexemes
import Paranoid.LoopbackHosts
import Paranoid.MnemonicCodec
import Paranoid.MutexGuard
import Paranoid.ObjectRecord
import Paranoid.OnceMarker
import Paranoid.Pagination
import Paranoid.Parentheses
import Paranoid.PasswordSealedKey
import Paranoid.PgIdentifiers
import Paranoid.ProtocolAdmission
import Paranoid.ProtocolFailure
import Paranoid.QueueBudget
import Paranoid.QueueClaims
import Paranoid.QueueCleanup
import Paranoid.QueueConservation
import Paranoid.QueueCounters
import Paranoid.QueueEnqueues
import Paranoid.QueueFailure
import Paranoid.QueueListing
import Paranoid.QueueOutcomes
import Paranoid.QueueReclaim
import Paranoid.RadixText
import Paranoid.SchemaLedger
import Paranoid.SchemaMigration
import Paranoid.SemaphoreSlots
import Paranoid.SetCookieText
import Paranoid.SizedParts
import Paranoid.SortableIdModel
import Paranoid.SortableIdOrder
import Paranoid.SortableIdText
import Paranoid.SqlConstants
import Paranoid.SqlLexemes
import Paranoid.SqlLiteral
import Paranoid.SqlScan
import Paranoid.SqlSeams
import Paranoid.SqlTexts
import Paranoid.StorageBinding
import Paranoid.TemplateGrammar
import Paranoid.TemplatePieces
import Paranoid.TemplateRendering
import Paranoid.TemplateScanner
import Paranoid.TemplateTokens
import Paranoid.TextCodecs
import Paranoid.ThrottlerAcquire
import Paranoid.ThrottlerCircuit
import Paranoid.ThrottlerExpiry
import Paranoid.ThrottlerObservations
import Paranoid.ThrottlerRefusal
import Paranoid.ThrottlerRelease
import Paranoid.ThrottlerSlots
import Paranoid.ThrottlerTokens
import Paranoid.TimeBounds
import Paranoid.TopicPolling
import Paranoid.TopicSequences
import Paranoid.TrimmedText
import Paranoid.Utf8Text
import Paranoid.VaultConcurrency
import Paranoid.VaultModel
import Paranoid.VaultReopening
import Paranoid.VaultText
import Paranoid.WorkerAccounting
import Paranoid.WorkerLoop
import Paranoid.WorkerMaintenance
