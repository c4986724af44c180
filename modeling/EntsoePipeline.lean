import EntsoePipeline.Py.Str
import EntsoePipeline.Py.Dict
import EntsoePipeline.Py.Datetime
import EntsoePipeline.Config.Classifier
import EntsoePipeline.Catalog.Tables
import EntsoePipeline.Landing.Layout
import EntsoePipeline.Landing.Gateway
import EntsoePipeline.Delta.Log
import EntsoePipeline.Catalog.Crawler
import EntsoePipeline.Delta.Refresh
import EntsoePipeline.Delta.Coverage
import EntsoePipeline.Catalog.Freshness
import EntsoePipeline.Landing.Checklist
import EntsoePipeline.Landing.Paths
import EntsoePipeline.Landing.Sync
import EntsoePipeline.Landing.SyncSafety
import EntsoePipeline.Staging.Ingestion
import EntsoePipeline.Staging.NoLostUpdate
import EntsoePipeline.Delta.Scans
import EntsoePipeline.Fms.Listing
import EntsoePipeline.Lib.LastWrite
import EntsoePipeline.Delta.Agreement
import EntsoePipeline.Lakehouse.Tables
import EntsoePipeline.Lakehouse.Upsert
import EntsoePipeline.Staging.Run
import EntsoePipeline.Staging.PendingSet
import EntsoePipeline.Staging.DeadLetter
import EntsoePipeline.Staging.ExactlyOnce
import EntsoePipeline.Landing.SyncIdempotence
import EntsoePipeline.Landing.SyncIsolation
import EntsoePipeline.Landing.SyncMoves
import EntsoePipeline.Delta.Commits
import EntsoePipeline.Delta.Convergence
import EntsoePipeline.Delta.LeafRows
import EntsoePipeline.Delta.Scope
import EntsoePipeline.Landing.GatewayCoverage
import EntsoePipeline.Delta.Transactions
import EntsoePipeline.Delta.Isolation
import EntsoePipeline.Delta.Aggregates
import EntsoePipeline.Lakehouse.SchemaRegistry
import EntsoePipeline.Lakehouse.SchemaAgreement
import EntsoePipeline.Landing.ChecklistBuilder
import EntsoePipeline.Landing.Preparation
import EntsoePipeline.Landing.SyncCoverage
import EntsoePipeline.Api.Throttler
import EntsoePipeline.Api.RequestCounter
import EntsoePipeline.Catalog.DdlValidation
import EntsoePipeline.Catalog.EntryPoints
import EntsoePipeline.Fms.CountedListing
import EntsoePipeline.Catalog.FolderSave
import EntsoePipeline.Catalog.Reclassification
import EntsoePipeline.Catalog.CrawlFailures
import EntsoePipeline.Delta.Inputs
import EntsoePipeline.Delta.Staleness
import EntsoePipeline.Delta.LeafNames
import EntsoePipeline.Config.RuleOrder
import EntsoePipeline.Fms.DriftReports
import EntsoePipeline.Fms.OverviewIngest
import EntsoePipeline.Catalog.LegacyArchives
import EntsoePipeline.Landing.ChecklistForms
import EntsoePipeline.Lakehouse.DomainTree
import EntsoePipeline.Lakehouse.CsvReader
import EntsoePipeline.Lakehouse.HeaderNames
import EntsoePipeline.Catalog.Sizes
import EntsoePipeline.Catalog.DomainReport
import EntsoePipeline.Config.EnvironmentFile
import EntsoePipeline.Config.EnvironmentSwitch
import EntsoePipeline.Config.SwitchedFile
import EntsoePipeline.Landing.RegisteredVersions
import EntsoePipeline.Lib.Retrying
import EntsoePipeline.Api.FileClient
import EntsoePipeline.Lib.Simulation
import EntsoePipeline.Api.RetriedListing
import EntsoePipeline.Landing.IngestJob
import EntsoePipeline.Staging.Cycle
import EntsoePipeline.Staging.EndToEnd
import EntsoePipeline.Lib.Recovery
import EntsoePipeline.Lakehouse.ObjectStore
import EntsoePipeline.Lakehouse.Bootstrap
import EntsoePipeline.Lakehouse.Provisioning
import EntsoePipeline.Catalog.SchemaBootstrap
import EntsoePipeline.Lib.Overwrite
import EntsoePipeline.Staging.WriteHistory
import EntsoePipeline.Catalog.FullRefresh
import EntsoePipeline.Catalog.Mirror
import EntsoePipeline.Staging.Discovery
