import OufGateway.Lib.Alone
import OufGateway.Lib.Base64
import OufGateway.Lib.Calendar
import OufGateway.Lib.Encoding
import OufGateway.Lib.Except
import OufGateway.Lib.Headers
import OufGateway.Lib.Host
import OufGateway.Lib.IpAddress
import OufGateway.Lib.IsoRoundTrip
import OufGateway.Lib.IsoText
import OufGateway.Lib.Json
import OufGateway.Lib.JsonParse
import OufGateway.Lib.JsonSize
import OufGateway.Lib.JsonText
import OufGateway.Lib.Latest
import OufGateway.Lib.Lua
import OufGateway.Lib.LuaLiteral
import OufGateway.Lib.LuaString
import OufGateway.Lib.Paging
import OufGateway.Lib.Pattern
import OufGateway.Lib.PatternRules
import OufGateway.Lib.PatternText
import OufGateway.Lib.Program
import OufGateway.Lib.PyAccess
import OufGateway.Lib.PyDict
import OufGateway.Lib.PyJson
import OufGateway.Lib.PyJsonFits
import OufGateway.Lib.PyJsonReread
import OufGateway.Lib.PyObject
import OufGateway.Lib.PyObjectStored
import OufGateway.Lib.Regex
import OufGateway.Lib.Script
import OufGateway.Lib.Sha256
import OufGateway.Lib.Table
import OufGateway.Lib.Text
import OufGateway.Lib.Tickets
import OufGateway.Lib.Trace
import OufGateway.Lib.UrlPath
import OufGateway.Lib.Window
import OufGateway.Proofs.ActivePointer
import OufGateway.Proofs.AdminPort
import OufGateway.Proofs.BudgetStates
import OufGateway.Proofs.Budgets
import OufGateway.Proofs.Capacity
import OufGateway.Proofs.CatchUp
import OufGateway.Proofs.ClientHeaders
import OufGateway.Proofs.Coalesce
import OufGateway.Proofs.Compiler
import OufGateway.Proofs.Configured
import OufGateway.Proofs.Coverage
import OufGateway.Proofs.Delegated
import OufGateway.Proofs.DelegationRuns
import OufGateway.Proofs.Dispatch
import OufGateway.Proofs.DispatchTotal
import OufGateway.Proofs.Episodes
import OufGateway.Proofs.EtcdResilience
import OufGateway.Proofs.EvidenceIngress
import OufGateway.Proofs.Executors
import OufGateway.Proofs.GeneratedLua
import OufGateway.Proofs.Governance
import OufGateway.Proofs.LastKnownGood
import OufGateway.Proofs.LastWord
import OufGateway.Proofs.Layers
import OufGateway.Proofs.Layout
import OufGateway.Proofs.Ledger
import OufGateway.Proofs.Lifecycle
import OufGateway.Proofs.Lifetimes
import OufGateway.Proofs.Listing
import OufGateway.Proofs.Materialize
import OufGateway.Proofs.Mediated
import OufGateway.Proofs.Mediation
import OufGateway.Proofs.NoBlindResend
import OufGateway.Proofs.OutboxBatch
import OufGateway.Proofs.OutboxBooks
import OufGateway.Proofs.OutboxCalls
import OufGateway.Proofs.OutboxComplete
import OufGateway.Proofs.OutboxHistory
import OufGateway.Proofs.OutboxKeys
import OufGateway.Proofs.OutboxLife
import OufGateway.Proofs.OutboxRuns
import OufGateway.Proofs.OutboxSpecs
import OufGateway.Proofs.OutboxSteps
import OufGateway.Proofs.OwnerGrants
import OufGateway.Proofs.OwnerHealth
import OufGateway.Proofs.OwnerModes
import OufGateway.Proofs.OwnerQueries
import OufGateway.Proofs.PageChain
import OufGateway.Proofs.PrepareRuntime
import OufGateway.Proofs.PressureFrames
import OufGateway.Proofs.PressureMonotone
import OufGateway.Proofs.PressureOrder
import OufGateway.Proofs.PressurePromotion
import OufGateway.Proofs.PressureRows
import OufGateway.Proofs.PressureTimers
import OufGateway.Proofs.Projection
import OufGateway.Proofs.ProofAccepted
import OufGateway.Proofs.PublicationEvidence
import OufGateway.Proofs.PublicationPlane
import OufGateway.Proofs.PublicationStore
import OufGateway.Proofs.Quotas
import OufGateway.Proofs.ReadArguments
import OufGateway.Proofs.Reconcile
import OufGateway.Proofs.RecoveryAnswer
import OufGateway.Proofs.RecoveryPath
import OufGateway.Proofs.RecoveryTotal
import OufGateway.Proofs.Requests
import OufGateway.Proofs.Retrofit
import OufGateway.Proofs.RetryAfter
import OufGateway.Proofs.RoleNames
import OufGateway.Proofs.RolloutKept
import OufGateway.Proofs.RolloutUndone
import OufGateway.Proofs.RouteDeploy
import OufGateway.Proofs.RouteIds
import OufGateway.Proofs.RouteNamespace
import OufGateway.Proofs.RouteTable
import OufGateway.Proofs.Since
import OufGateway.Proofs.Snapshots
import OufGateway.Proofs.Southbound
import OufGateway.Proofs.StoredArtifact
import OufGateway.Proofs.StoredTimes
import OufGateway.Proofs.TokenText
import OufGateway.Proofs.TrustedIdentity
import OufGateway.Proofs.Uuids
import OufGateway.Ref.ActivationGate
import OufGateway.Ref.AdminHttp
import OufGateway.Ref.Bookmarks
import OufGateway.Ref.Coalesce
import OufGateway.Ref.CompileConfig
import OufGateway.Ref.ControlPlane
import OufGateway.Ref.Cursor
import OufGateway.Ref.Delegation
import OufGateway.Ref.DelegationProof
import OufGateway.Ref.Dispatch
import OufGateway.Ref.DispatchBody
import OufGateway.Ref.EtcdResilience
import OufGateway.Ref.EvidenceIngress
import OufGateway.Ref.Executors
import OufGateway.Ref.GeneratedLua
import OufGateway.Ref.History
import OufGateway.Ref.Incidents
import OufGateway.Ref.MaterializeM2M
import OufGateway.Ref.Mediation
import OufGateway.Ref.Outbox
import OufGateway.Ref.OwnerApi
import OufGateway.Ref.OwnerQuery
import OufGateway.Ref.PrepareRuntime
import OufGateway.Ref.Pressure
import OufGateway.Ref.Projection
import OufGateway.Ref.Publication
import OufGateway.Ref.ReadArguments
import OufGateway.Ref.Recovery
import OufGateway.Ref.Retrofit
import OufGateway.Ref.RolloutFiles
import OufGateway.Ref.RolloutRuntime
import OufGateway.Ref.RouteDeploy
import OufGateway.Ref.Southbound
import OufGateway.Ref.StoredArtifact
import OufGateway.Ref.TrustedIdentity
