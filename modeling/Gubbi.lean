import Gubbi.Library.Replay
import Gubbi.Library.Search
import Gubbi.Library.Ledger
import Gubbi.Library.KeyedTable
import Gubbi.Library.Constraints
import Gubbi.Library.Windows
import Gubbi.Library.Fallible
import Gubbi.Library.Queries
import Gubbi.Library.Like
import Gubbi.Library.Transactions
import Gubbi.Library.Connections
import Gubbi.Library.RowSecurity
import Gubbi.Library.Keyset
import Gubbi.Library.Sweep
import Gubbi.Library.Placeholders
import Gubbi.Library.Ranking
import Gubbi.Text
import Gubbi.Validation
import Gubbi.OAuth.Storage
import Gubbi.OAuth.Provider
import Gubbi.OAuth.Pairing
import Gubbi.OAuth.Requests
import Gubbi.OAuth.SingleUse
import Gubbi.OAuth.Lineage
import Gubbi.OAuth.Revocation
import Gubbi.OAuth.Grants
import Gubbi.OAuth.Scopes
import Gubbi.OAuth.LoginLimit
import Gubbi.OAuth.AuthorizationCodes
import Gubbi.Crypto.Cipher
import Gubbi.Crypto.KeyMaps
import Gubbi.Rotation.Script
import Gubbi.Rotation.Selection
import Gubbi.Rotation.Migration
import Gubbi.Rotation.RotateTable
import Gubbi.Rotation.Undecryptable
import Gubbi.Rotation.DryRun
import Gubbi.Rotation.Concurrent
import Gubbi.Extraction.Jobs
import Gubbi.Extraction.StateMachine
import Gubbi.Extraction.Run
import Gubbi.Extraction.Reextraction
import Gubbi.Extraction.Worker
import Gubbi.Extraction.ExactlyOnce
import Gubbi.Extraction.Budget
import Gubbi.Extraction.ProgressStreams
import Gubbi.Journal.Entries
import Gubbi.Journal.Freshness
import Gubbi.Journal.Reindex
import Gubbi.Journal.ReindexRuns
import Gubbi.Journal.ReindexIsolation
import Gubbi.Journal.EmbeddedText
import Gubbi.Journal.Conversations
import Gubbi.Journal.Ingest
import Gubbi.Journal.IngestIsolation
import Gubbi.Journal.IngestAccounting
import Gubbi.Journal.Archives
import Gubbi.Journal.Superseded
import Gubbi.Journal.Tables
import Gubbi.Journal.Rows
import Gubbi.Journal.Listing
import Gubbi.Journal.Writers
import Gubbi.Journal.StoredText
import Gubbi.Journal.EntryUpdate
import Gubbi.Journal.Pagination
import Gubbi.Journal.Timeline
import Gubbi.Journal.TopicMoves
import Gubbi.Journal.AuditedTools
import Gubbi.Journal.UpdateTool
import Gubbi.Journal.Deletion
import Gubbi.Journal.TextChanges
import Gubbi.Journal.Search
import Gubbi.Journal.SearchFailures
import Gubbi.Auth.Introspector
import Gubbi.Auth.SingleFlight
import Gubbi.Auth.ClaimsExpiry
import Gubbi.Auth.Strategies
import Gubbi.Tenancy.Tables
import Gubbi.Tenancy.Statements
import Gubbi.Tenancy.Repositories
import Gubbi.Tenancy.Operations
import Gubbi.Tenancy.Ownership
import Gubbi.Tenancy.Sessions
import Gubbi.Tenancy.Isolation
import Gubbi.Tenancy.InFlight
import Gubbi.Tenancy.TopicRaces
import Gubbi.Tenancy.LinkedEntries
import Gubbi.Journal.Dates
import Gubbi.Journal.PeriodForms
import Gubbi.Journal.PeriodLabels
import Gubbi.Journal.DateChecks
import Gubbi.Journal.CanonicalTitles
import Gubbi.Journal.TopicPaths
import Gubbi.Crypto.MasterKeys
import Gubbi.Journal.ReadBack
import Gubbi.Telemetry.SanitizedErrors
import Gubbi.Extraction.BillingPeriod
import Gubbi.Extraction.ModelOutputs
import Gubbi.Auth.Upstream
import Gubbi.Urls
import Gubbi.Auth.Origins
import Gubbi.OAuth.LoginPost
import Gubbi.Journal.MarkedReads
import Gubbi.Journal.TornReads
import Gubbi.Journal.Transcripts
import Gubbi.Journal.Labels
import Gubbi.Journal.ProposedPaths
import Gubbi.Journal.PrefixFilters
import Gubbi.Journal.Dashboard
import Gubbi.Library.Simulation
import Gubbi.OAuth.SweptRows
import Gubbi.OAuth.Cleanup
import Gubbi.Library.EventStream
import Gubbi.Library.FlatJson
import Gubbi.Extraction.Owners
import Gubbi.Extraction.ProgressEvents
import Gubbi.Library.Resources
import Gubbi.Deploy.Settings
import Gubbi.Deploy.Lifespan
import Gubbi.Deploy.Access
import Gubbi.Deploy.Operator
import Gubbi.Deploy.Tools
import Gubbi.Journal.TopicHistory
import Gubbi.Deploy.Worker
import Gubbi.Library.Limiter
import Gubbi.OAuth.RegisterLimit
import Gubbi.Journal.FullReindex
import Gubbi.Library.Backlog
import Gubbi.OAuth.Backfill
