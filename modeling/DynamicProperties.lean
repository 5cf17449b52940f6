import DynamicProperties.Library.Footprint
import DynamicProperties.Library.Sequence
import DynamicProperties.Library.Requests
import DynamicProperties.Library.Pool
import DynamicProperties.Cpp.Application
import DynamicProperties.Cpp.Preflight
import DynamicProperties.Cpp.LimitSimulation
import DynamicProperties.Cpp.Codec
import DynamicProperties.Cpp.Events
import DynamicProperties.Cpp.Calls
import DynamicProperties.Cpp.Conduct
import DynamicProperties.Cpp.Legality
import DynamicProperties.Cpp.Transactions
import DynamicProperties.Cpp.Expectations
import DynamicProperties.Cpp.Traces
import DynamicProperties.Cpp.OptimisticRevisions
import DynamicProperties.Cpp.RevisionEncoding
import DynamicProperties.Cpp.Cancellation
import DynamicProperties.Cpp.CommittedFacts
import DynamicProperties.Cpp.AuditTruth
import DynamicProperties.Library.TwoRuns
import DynamicProperties.Cpp.Agreement
import DynamicProperties.Cpp.Isolation
import DynamicProperties.Library.Collections
import DynamicProperties.Cpp.Actions
import DynamicProperties.Python.Model
import DynamicProperties.Python.Adapter
import DynamicProperties.Python.Validation
import DynamicProperties.Python.Preflight
import DynamicProperties.Library.FiniteMap
import DynamicProperties.Python.Actions
import DynamicProperties.Python.Captures
import DynamicProperties.Python.LimitSimulation
import DynamicProperties.Python.Accepted
import DynamicProperties.PreflightExact
import DynamicProperties.Cpp.Utf8
import DynamicProperties.Library.Json
import DynamicProperties.Cpp.Scanner
import DynamicProperties.Cpp.StringLiterals
import DynamicProperties.Cpp.Parser
import DynamicProperties.Cpp.Writer
import DynamicProperties.Cpp.Undisturbed
import DynamicProperties.Cpp.Backup
import DynamicProperties.Library.Trim
import DynamicProperties.Python.Text
import DynamicProperties.PluginNamespaces
import DynamicProperties.Library.Mirror
import DynamicProperties.Correspondence
import DynamicProperties.AdapterAgreement
import DynamicProperties.Library.Raising
import DynamicProperties.Python.Events
import DynamicProperties.Python.Service
import DynamicProperties.Python.Calls
import DynamicProperties.Python.Conduct
import DynamicProperties.Python.Legality
import DynamicProperties.Python.StoreIntegrity
import DynamicProperties.Cpp.Gate
import DynamicProperties.Python.Gate
import DynamicProperties.ExternalGates
import DynamicProperties.Library.AtomicSections
import DynamicProperties.Cpp.LockedCommits
import DynamicProperties.Cpp.Linearization
import DynamicProperties.Python.Transitions
import DynamicProperties.CommittedTransitions
import DynamicProperties.Python.NativeManifest
import DynamicProperties.Python.StageReport
import DynamicProperties.Python.ManifestEvidence
import DynamicProperties.Cpp.Locality
import DynamicProperties.Cpp.Decompositions
import DynamicProperties.Cpp.AuditCompleteness
import DynamicProperties.Cpp.Migrations
import DynamicProperties.Library.Bits
import DynamicProperties.Library.Sha256
import DynamicProperties.Cpp.Sha256
import DynamicProperties.Python.ManifestActivation
import DynamicProperties.Library.JsonAlphabet
import DynamicProperties.Library.JsonUnique
import DynamicProperties.DocumentAgreement
import DynamicProperties.Python.Undisturbed
import DynamicProperties.Python.Imports
import DynamicProperties.DecoderAgreement
import DynamicProperties.ImportAgreement
import DynamicProperties.Cpp.VersionGate
import DynamicProperties.Cpp.MutexRegistry
import DynamicProperties.Cpp.TargetIdentity
import DynamicProperties.Python.FailClosed
import DynamicProperties.Python.StoredLimits
import DynamicProperties.Library.JsonWriter
import DynamicProperties.Python.Exports
import DynamicProperties.Cpp.Activation
import DynamicProperties.Cpp.ClosedService
import DynamicProperties.NativePipeline
import DynamicProperties.DocumentExchange
