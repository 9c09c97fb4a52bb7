import Kitematic.Trace
import Kitematic.State
import Kitematic.Isolation
import Kitematic.Quotas
import Kitematic.RuntimeAbi
import Kitematic.Admission
import Kitematic.Resumption
import Kitematic.Interleaving
import Kitematic.IsolationSlots
import Kitematic.QuotaSlots
import Kitematic.CheckpointOwner
import Kitematic.Ownership
import Kitematic.AgentScope
import Kitematic.Chain
import Kitematic.RestApi
import Kitematic.RestIsolation
import Kitematic.Lifecycle
import Kitematic.LoopTenants
import Kitematic.PolicyRouting
import Kitematic.ConcurrencyLimits
import Kitematic.Shutdown
import Kitematic.PolicyHistory
import Kitematic.PolicyOrder
import Kitematic.JsonScan
import Kitematic.Json
import Kitematic.IsoDate
import Kitematic.StoreRefinement
import Kitematic.CheckpointVersions
import Kitematic.CheckpointIntegrity
import Kitematic.SaveInterleaving
import Kitematic.Recovery
import Kitematic.LoopRuns
import Kitematic.LoopBudget
import Kitematic.RestEvents
import Kitematic.Observability
import Kitematic.Signals
import Kitematic.Accounting
import Kitematic.Broker
import Kitematic.Events
import Kitematic.ExecutionLifecycle
import Kitematic.Streams
import Kitematic.RedisPublishers
import Kitematic.PublisherAgreement
import Kitematic.StreamEncoding
import Kitematic.ReplayHandover
import Kitematic.StreamRuns
import Kitematic.StreamIsolation
import Kitematic.StreamReads
import Kitematic.StreamDelivery
import Kitematic.TokenBuckets
import Kitematic.QuotaIsolation
import Kitematic.QuotaWindows
import Kitematic.LoopTrails
import Kitematic.MultiStep
import Kitematic.FailurePhases
import Kitematic.GatewayAudit
import Kitematic.BudgetLimits
import Kitematic.PolicyCache
import Kitematic.ToolRouting
import Kitematic.ActiveExecutions
import Kitematic.RetryDelays
import Kitematic.StepContract
import Kitematic.InMemorySteps
import Kitematic.ApiKeys
import Kitematic.PluginManifests
import Kitematic.PluginDiscovery
import Kitematic.StepCharges
import Kitematic.MemoryRepository
import Kitematic.MemoryOrder
import Kitematic.MemoryIndex
import Kitematic.FilePaths
import Kitematic.CheckpointFiles
import Kitematic.CheckpointPaths
import Kitematic.CheckpointOverwrites
import Kitematic.IndexLoss
import Kitematic.CheckpointDecoding
import Kitematic.CorruptCheckpoints
import Kitematic.StorePaths
import Kitematic.CharPatterns
import Kitematic.ExtensionManifests
import Kitematic.CapabilityVersions
import Kitematic.RegistryBridge
import Kitematic.ArtifactStore
import Kitematic.ExtensionReads
import Kitematic.StreamParsers
import Kitematic.PythonSources
import Kitematic.DependencyDirection
import Kitematic.InterfaceCompliance
import Kitematic.FileTrees
import Kitematic.PluginInstall
import Kitematic.InstalledPlugins
import Kitematic.DepthFirst
import Kitematic.ImportCycles
import Kitematic.HistogramSummaries
import Kitematic.EventLogs
import Kitematic.KeyRevocation
import Kitematic.AuditTrail
import Kitematic.AgentInstances
import Kitematic.RedisProcesses
import Kitematic.PluginShelf
import Kitematic.SecretsFiles
import Kitematic.ArchitectureGate
import Kitematic.CrashedSaves
import Kitematic.RuntimeLog
