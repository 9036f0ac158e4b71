import Bridgeport.Agent.ContainerStatus
import Bridgeport.Agent.Percentages
import Bridgeport.AgentDeploy.AgentSettles
import Bridgeport.Api.Replays
import Bridgeport.Backup.DatabaseCredentials
import Bridgeport.Backup.PolicyPreview
import Bridgeport.Backup.RotationRuns
import Bridgeport.Backup.UpgradeRuns
import Bridgeport.Backup.WholeBackups
import Bridgeport.Bootstrap.BootstrapLock
import Bridgeport.Concurrency.KeyedLockRuns
import Bridgeport.ConfigScan.Meaning
import Bridgeport.ConfigSync.BatchRollback
import Bridgeport.ConfigSync.DiffMinimal
import Bridgeport.ConfigSync.PlacedWrites
import Bridgeport.Dependencies.EdgesAcyclic
import Bridgeport.Deploy.DriftFree
import Bridgeport.Deploy.Redaction
import Bridgeport.Discovery.ImageReferences
import Bridgeport.Discovery.Reconciliation
import Bridgeport.Discovery.SharedTemplates
import Bridgeport.Docker.Agreement
import Bridgeport.Environments.Containment
import Bridgeport.FileSync.SyncedFiles
import Bridgeport.Images.ImageDigests
import Bridgeport.KeyUsage.UsageBackfill
import Bridgeport.Migrations.TemplatesPreserve
import Bridgeport.Monitoring.AlertLaw
import Bridgeport.Monitoring.Downsample
import Bridgeport.Monitoring.HistoryCursor
import Bridgeport.Notifications.Preferences
import Bridgeport.Plans.Cancellation
import Bridgeport.Plans.ParallelGroups
import Bridgeport.Plans.TerminalEvents
import Bridgeport.Plugins.EditsSurvive
import Bridgeport.Schedules.CronLoops
import Bridgeport.Schedules.NextMatch
import Bridgeport.Schedules.RotationPasses
import Bridgeport.Settings.FreshCache
import Bridgeport.Settings.OneDefault
import Bridgeport.Ssh.PoolOwnership
import Bridgeport.SyncBatch.BatchReplay
import Bridgeport.SyncBatch.CanonicalJson
import Bridgeport.Templates.TemplateMeaning
import Bridgeport.Terraform.ImportAtomic
import Bridgeport.Ui.EventStream
import Bridgeport.Ui.MetricResource
import Bridgeport.Ui.PaginatedFetch
import Bridgeport.Users.AdminRemains
import Bridgeport.Webhooks.DeliveryOutcome
import Bridgeport.Webhooks.SafeDestinations
