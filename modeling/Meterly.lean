import Meterly.Machine.Run
import Meterly.Machine.Logged
import Meterly.Store.RowTable
import Meterly.Store.Query
import Meterly.Num.Decimal
import Meterly.Model.Time
import Meterly.Model.Schema
import Meterly.Model.DailyDate
import Meterly.Model.Database
import Meterly.Model.Repositories
import Meterly.Model.Services.Events
import Meterly.Model.Services.Quotas
import Meterly.Model.Services.Usage
import Meterly.Model.Services.UsageExport
import Meterly.Model.System
import Meterly.Soundness.Held
import Meterly.Soundness.Consistency
import Meterly.Soundness.RollupLog
import Meterly.Soundness.Calls
import Meterly.Soundness.ExactlyOnce
import Meterly.Soundness.Snapshots
import Meterly.Soundness.QuotaMap
import Meterly.Soundness.CappedCounter
import Meterly.Soundness.CappedIngest
import Meterly.Soundness.CappedSerial
import Meterly.Soundness.CapBinding
import Meterly.Soundness.CompletedExport
import Meterly.Store.View
import Meterly.Soundness.TenantView
import Meterly.Soundness.Noninterference
import Meterly.Num.Ascent
import Meterly.Auth.RateLimit
import Meterly.Auth.RateBound
import Meterly.Auth.ApiKey
import Meterly.Auth.RequireApiKey
import Meterly.Auth.Grounded
import Meterly.Auth.CachedGuard
import Meterly.Auth.Revocation
import Meterly.Soundness.UsageLog
import Meterly.Soundness.EventTime
import Meterly.Model.Calendar
import Meterly.Soundness.DailyLog
import Meterly.Model.ExportStatements
import Meterly.Soundness.ExportFilter
import Meterly.Text.Rfc4180
import Meterly.Num.PlainDecimal
import Meterly.Model.IsoFormat
import Meterly.Model.Services.ExportGenerator
import Meterly.Soundness.ExportChunks
import Meterly.Soundness.EscapedCells
import Meterly.Soundness.ExportBody
import Meterly.Soundness.ExportAudit
import Meterly.Soundness.FormulaFree
import Meterly.Num.IdealBucket
import Meterly.Auth.ExpiringBucket
import Meterly.Auth.RetryAfter
import Meterly.Machine.Progress
import Meterly.Model.Server
import Meterly.Soundness.LockOrder
import Meterly.Soundness.Pooled
import Meterly.Soundness.DeadlockFreedom
import Meterly.Store.RowPolicy
import Meterly.Model.RowSecurity
import Meterly.Model.PooledConnection
import Meterly.Soundness.TenantControls
import Meterly.Soundness.ScopedStatements
import Meterly.Num.Numeric
import Meterly.Soundness.ExactQuantities
import Meterly.Model.LogCalls
import Meterly.Soundness.AuditLog
import Meterly.Text.Json
import Meterly.Model.Logging
import Meterly.Model.BoundParameters
import Meterly.Model.RequestLog
import Meterly.Soundness.CustomerRenaming
import Meterly.Soundness.LogIndependence
import Meterly.Text.Document
import Meterly.Soundness.SentryScrubbing
import Meterly.Text.Headers
import Meterly.Model.MiddlewareStack
import Meterly.Soundness.StampedResponses
import Meterly.Text.Pattern
import Meterly.Auth.SplitToken
import Meterly.Soundness.DateGrammar
import Meterly.Num.Binary64
import Meterly.Soundness.HourWindows
import Meterly.Model.Application
import Meterly.Soundness.ApplicationRuns
import Meterly.Soundness.VerifiedWrites
import Meterly.Auth.Metered
import Meterly.Soundness.ThrottledRequests
import Meterly.Soundness.Completion
import Meterly.Store.ConfinedRows
import Meterly.Soundness.RowSecurityBackstop
import Meterly.Soundness.MisscopedTransactions
import Meterly.Model.Migrations
import Meterly.Soundness.MigratedLog
import Meterly.Machine.Linearization
import Meterly.Model.Ledger
import Meterly.Soundness.LedgerEffects
import Meterly.Soundness.Linearizable
import Meterly.Text.JsonReader
import Meterly.Soundness.LogStream
import Meterly.Auth.ActiveKey
import Meterly.Model.Provisioning
import Meterly.Soundness.ProvisionedKeys
import Meterly.Model.Transcript
import Meterly.Soundness.SequentialCalls
import Meterly.Machine.Protocol
import Meterly.Model.AuditTrail
import Meterly.Soundness.AuditTrail
import Meterly.Soundness.AuditedStream
