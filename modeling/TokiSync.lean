import TokiSync.ActiveAdmins
import TokiSync.ActiveStatusCache
import TokiSync.AdminAccounts
import TokiSync.AdminEvidence
import TokiSync.AdminHandlers
import TokiSync.AggregateEntries
import TokiSync.AnsweredQueries
import TokiSync.AppointedAdmins
import TokiSync.BatchedMaps
import TokiSync.BucketCeiling
import TokiSync.BucketLosses
import TokiSync.ByteCodec
import TokiSync.ByteKeys
import TokiSync.ByteStreams
import TokiSync.CalendarBuckets
import TokiSync.CappedTallies
import TokiSync.ClickHouseRoundTrip
import TokiSync.ClickHouseRows
import TokiSync.ClickHouseStatements
import TokiSync.ConnectionAuth
import TokiSync.ConnectionReplies
import TokiSync.CrashPrograms
import TokiSync.CursorRebuild
import TokiSync.DatabaseCalls
import TokiSync.DatabaseRepo
import TokiSync.DatabaseRuns
import TokiSync.DeactivatedUsers
import TokiSync.DedupCutoffs
import TokiSync.DedupRetention
import TokiSync.DeletionRaces
import TokiSync.DeletionRuns
import TokiSync.DeviceDeletion
import TokiSync.DeviceGrant
import TokiSync.DeviceOwners
import TokiSync.DurationGrammar
import TokiSync.DurationText
import TokiSync.EnvExpansion
import TokiSync.FieldwiseMerge
import TokiSync.FirstEntries
import TokiSync.FjallBatches
import TokiSync.FjallCoherence
import TokiSync.FjallContents
import TokiSync.FjallIndex
import TokiSync.FjallQueries
import TokiSync.FjallReplacing
import TokiSync.FjallReplays
import TokiSync.FjallRuns
import TokiSync.FjallSplits
import TokiSync.FjallStore
import TokiSync.FrameCodec
import TokiSync.GroupedTotals
import TokiSync.GuardRuns
import TokiSync.GuardSubjects
import TokiSync.HandlerViews
import TokiSync.InactiveUsers
import TokiSync.IndexBackfill
import TokiSync.IndexOwners
import TokiSync.IndexScans
import TokiSync.InstantQueries
import TokiSync.InterleavedSessions
import TokiSync.KeyCollisions
import TokiSync.KeyedRows
import TokiSync.LocalClocks
import TokiSync.LoginEvidence
import TokiSync.LoginGuard
import TokiSync.LossyText
import TokiSync.MachineWords
import TokiSync.MonitorHistories
import TokiSync.MonitorInvariant
import TokiSync.MonitorSettings
import TokiSync.OidcAccounts
import TokiSync.OidcLogins
import TokiSync.OidcNonce
import TokiSync.OidcRedirect
import TokiSync.OldSessions
import TokiSync.OrderedEntries
import TokiSync.PasswordRevocation
import TokiSync.PeriodLabels
import TokiSync.Placeholders
import TokiSync.PostgresTokens
import TokiSync.PriceLists
import TokiSync.QueryAcceptance
import TokiSync.QueryArithmetic
import TokiSync.QueryBounds
import TokiSync.QueryCursor
import TokiSync.QueryCursorRuns
import TokiSync.QueryGrammar
import TokiSync.QueryLanguage
import TokiSync.QueryLists
import TokiSync.QueryTokens
import TokiSync.RangeScans
import TokiSync.RawListings
import TokiSync.ReferencedRows
import TokiSync.RefreshTokens
import TokiSync.RegistrationDecisions
import TokiSync.ReplacingMerge
import TokiSync.RetryHints
import TokiSync.RotationReuse
import TokiSync.RowVersions
import TokiSync.Runs
import TokiSync.ServedEvents
import TokiSync.ServedListings
import TokiSync.ServerEvents
import TokiSync.ShownWindows
import TokiSync.SlicedTexts
import TokiSync.SnapshotWrites
import TokiSync.SqliteTokens
import TokiSync.StableOrder
import TokiSync.SteppedCounts
import TokiSync.SweptTables
import TokiSync.SyncAcks
import TokiSync.SyncBatches
import TokiSync.SyncConnection
import TokiSync.SyncCursor
import TokiSync.SyncServer
import TokiSync.TableViews
import TokiSync.TenantIsolation
import TokiSync.TextEdits
import TokiSync.TokenEffects
import TokiSync.TokenLedger
import TokiSync.TokiQuery
import TokiSync.TrappingWords
import TokiSync.UniqueConflicts
import TokiSync.UrlHosts
import TokiSync.UsageAggregation
import TokiSync.UserEvidence
import TokiSync.Utf8Slices
import TokiSync.VirtualQueries
import TokiSync.WebAuthority
import TokiSync.WebEvidence
import TokiSync.WebHandlers
import TokiSync.WebRequests
import TokiSync.WebRoutes
import TokiSync.WebRuns
import TokiSync.WebServer
import TokiSync.WindowAcks
import TokiSync.WindowConvergence
import TokiSync.WindowListings
import TokiSync.WindowMerge
import TokiSync.WindowQueries
import TokiSync.WindowRejects
import TokiSync.WindowResends
import TokiSync.WindowSanitizing
import TokiSync.WindowStore
import TokiSync.WindowSummaries
import TokiSync.WindowSweeps
import TokiSync.WindowVersions
import TokiSync.WindowsLimiter
import TokiSync.WindowsMigration
import TokiSync.WireWindows
import TokiSync.WritePermits
import TokiSync.ZoneBuckets
