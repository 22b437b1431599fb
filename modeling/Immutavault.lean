import Immutavault.Programs
import Immutavault.Interleavings
import Immutavault.Tables
import Immutavault.PosixPaths
import Immutavault.GlobPatterns
import Immutavault.Digests
import Immutavault.Timestamps
import Immutavault.Values
import Immutavault.GuestFiles
import Immutavault.SessionOwnership
import Immutavault.Configuration
import Immutavault.Tenancy
import Immutavault.Catalog
import Immutavault.Machine
import Immutavault.Histories
import Immutavault.HashChains
import Immutavault.StateDatabase
import Immutavault.AuditChain
import Immutavault.TamperEvidence
import Immutavault.ResticRepository
import Immutavault.ProviderLocks
import Immutavault.Adapters
import Immutavault.RestoreEngine
import Immutavault.RequestRows
import Immutavault.RestoreRequests
import Immutavault.FourEyes
import Immutavault.Backups
import Immutavault.ProtectionPolicies
import Immutavault.Management
import Immutavault.Inventories
import Immutavault.FaultyRuns
import Immutavault.JobOutcomes
import Immutavault.OutcomeRows
import Immutavault.OperationsView
import Immutavault.TenantViews
import Immutavault.RetentionHolds
import Immutavault.PointImmutability
import Immutavault.ReplicaCopies
import Immutavault.DRNetwork
import Immutavault.DROrchestrator
import Immutavault.RecoveryRequests
import Immutavault.PromotionSafety
import Immutavault.ConversionPolicy
import Immutavault.RecoveryTests
import Immutavault.Portal
import Immutavault.TestIsolation
import Immutavault.TestOutcomes
import Immutavault.TestSessions
import Immutavault.SplitBrain
import Immutavault.FailoverRuns
import Immutavault.Demotions
import Immutavault.DRTransitions
import Immutavault.LockHorizons
import Immutavault.PolicyScope
import Immutavault.FailbackIdentity
import Immutavault.RequestRoutes
import Immutavault.TenantBoundaries
import Immutavault.AuditCompleteness
import Immutavault.SessionLimits
import Immutavault.OpeningSessions
import Immutavault.LinkedTrees
import Immutavault.HostTrees
import Immutavault.SnapshotLookup
import Immutavault.DiskImages
import Immutavault.BrokerMessages
import Immutavault.PortalResponses
import Immutavault.FileDownloads
import Immutavault.HttpFields
import Immutavault.DownloadNames
import Immutavault.BrokerRefinement
import Immutavault.TestExecutions
import Immutavault.Verifications
import Immutavault.RetentionOutcomes
import Immutavault.BackupIsolation
import Immutavault.CopyTargets
import Immutavault.JsonTexts
import Immutavault.JsonRoundTrips
import Immutavault.LooseValues
import Immutavault.TreeWrites
import Immutavault.HostDisks
import Immutavault.Integrity
import Immutavault.VddkProvider
import Immutavault.CheckpointAtomicity
import Immutavault.BucketLocks
import Immutavault.RefreshRaces
import Immutavault.ObjectRetention
import Immutavault.MountChecks
import Immutavault.HealthProbes
import Immutavault.AutomaticFailover
import Immutavault.PromotionFailures
import Immutavault.FailbackFailures
import Immutavault.LatestPoints
import Immutavault.PlannedRequests
import Immutavault.ProviderRoutes
import Immutavault.ShellLists
import Immutavault.Withdrawals
import Immutavault.Base64Texts
import Immutavault.SignedTokens
import Immutavault.ElementTrees
import Immutavault.UstarArchives
import Immutavault.OvaPackages
import Immutavault.FirmwareEvidence
import Immutavault.ProxmoxHosts
import Immutavault.ProxmoxImports
import Immutavault.ImportAtomicity
import Immutavault.SeparatedTexts
import Immutavault.InternetAddresses
import Immutavault.InternetTexts
import Immutavault.DRConfigurations
import Immutavault.EnterpriseFields
import Immutavault.UserRows
import Immutavault.ClaimMapping
import Immutavault.TokenRoundTrips
import Immutavault.LoginRedirects
import Immutavault.SetupRequests
import Immutavault.EnvironmentFiles
import Immutavault.ManagementService
import Immutavault.EnvironmentEdits
import Immutavault.TargetCredentials
import Immutavault.CredentialConflicts
import Immutavault.ResavedPlatforms
import Immutavault.PolicyIds
import Immutavault.PathComponents
import Immutavault.BigEndian
import Immutavault.WebSocketFrames
import Immutavault.DistinguishedEncodings
import Immutavault.PublicKeys
import Immutavault.StateBackups
import Immutavault.TimestampTexts
import Immutavault.MountUnits
import Immutavault.IncrementalExports
import Immutavault.CheckpointChains
import Immutavault.FallbackPolicies
import Immutavault.SettingFiles
import Immutavault.OidcLogins
import Immutavault.GroundedLogins
