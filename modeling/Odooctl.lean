import Odooctl.AccessControl
import Odooctl.ActivePointer
import Odooctl.AdvertisedBackups
import Odooctl.AwsSnapshots
import Odooctl.BackupIndex
import Odooctl.Base64
import Odooctl.BaseBackups
import Odooctl.BaseCompleteness
import Odooctl.CanonicalDocuments
import Odooctl.CapabilityTokens
import Odooctl.CloneProtection
import Odooctl.ConfigGrammar
import Odooctl.ConfigSnapshot
import Odooctl.CronSchedule
import Odooctl.CutoverRestore
import Odooctl.CutoverRestoreProgress
import Odooctl.EnvironmentLocks
import Odooctl.EnvironmentRemoval
import Odooctl.EventStream
import Odooctl.GitSync
import Odooctl.ImportContract
import Odooctl.KubernetesFleet
import Odooctl.KubernetesIsolation
import Odooctl.LatestBackup
import Odooctl.LeaseAcquisition
import Odooctl.LeaseHosts
import Odooctl.LockExclusion
import Odooctl.MigrationReads
import Odooctl.MigrationSafety
import Odooctl.NonceSingleUse
import Odooctl.PasswordSessions
import Odooctl.PiecewiseReplacement
import Odooctl.PitrRetentionSafety
import Odooctl.ProjectRegistry
import Odooctl.Promotion
import Odooctl.PromotionRecovery
import Odooctl.RankCeiling
import Odooctl.RecoveryRecords
import Odooctl.RecoveryWait
import Odooctl.RehearsalSafety
import Odooctl.RestoreAtomicity
import Odooctl.RunnerCancellation
import Odooctl.RunnerResilience
import Odooctl.SanitizationOrigin
import Odooctl.SecretEnvelopes
import Odooctl.SecretUpdates
import Odooctl.ShellRedaction
import Odooctl.SnapshotAccounting
import Odooctl.SnapshotPointer
import Odooctl.SnapshotReading
import Odooctl.SnapshotSecrecy
import Odooctl.SourceDeletion
import Odooctl.StructuredRedaction
import Odooctl.SyncRetries
import Odooctl.WalReceipts
import Odooctl.LeaseExclusion
import Odooctl.RecoveryAgreement
import Odooctl.RemotePruningSafety
import Odooctl.PreviewNames
import Odooctl.AuditTampering
import Odooctl.AuditDurability
import Odooctl.OperationEngine
import Odooctl.RestoreExecution
import Odooctl.RestoreOutcomes
import Odooctl.RestoreRollback
