import Raes.Errors
import Raes.Graph.Cycles
import Raes.Lib.CartesianProduct
import Raes.Lib.SortBy
import Raes.Lib.ExceptList
import Raes.Lib.Binary64
import Raes.Graph.StableOrder
import Raes.Lib.Worklist
import Raes.Contracts.Addressing
import Raes.Contracts.BoundedDomains
import Raes.Contracts.CanonicalJson
import Raes.Planner.Dependencies
import Raes.Planner.Reconcile
import Raes.Json
import Raes.Lib.Stateful
import Raes.Store.Record
import Raes.Store.Transitions
import Raes.Store.InjectClaims
import Raes.Store.Guards
import Raes.Store.Commit
import Raes.Store.Memory
import Raes.Store.MemoryEffects
import Raes.Store.MemoryRuns
import Raes.Store.Durable
import Raes.Store.Local
import Raes.Store.LocalEffects
import Raes.Store.ClaimHistory
import Raes.Store.LocalRuns
import Raes.Store.GuardIndex
import Raes.Store.Refinement
import Raes.Contracts.JsonPointer
import Raes.Lib.Verdict
import Raes.Store.InjectChain
import Raes.Store.LedgerRuns
import Raes.Store.HistoryRows
import Raes.Store.HistoryPersist
import Raes.Store.HistoryRoundTrip
import Raes.Recovery.Startup
import Raes.Recovery.Reconciled
import Raes.Recovery.StartupRuns
import Raes.Lib.Loop
import Raes.Contracts.Diagnostics
import Raes.Opacity.TransitionModel
import Raes.Opacity.Reachability
import Raes.Opacity.ModelCheck
import Raes.ExploitPath.Search
import Raes.ExploitPath.SearchExact
import Raes.Mutation.Authority
import Raes.Mutation.Exclusion
import Raes.Mutation.Runs
import Raes.Trial.Policies
import Raes.Trial.Selections
import Raes.Trial.Registry
import Raes.Trial.Expansion
import Raes.Trial.Coverage
import Raes.Realization.Models
import Raes.Realization.Common
import Raes.Realization.Conformance
import Raes.Realization.ScopeIndex
import Raes.Realization.Collections
import Raes.Realization.Meaning
import Raes.Realization.Evaluation
import Raes.Realization.Scopes
import Raes.Realization.Escapes
import Raes.Realization.ScopeEscapes
import Raes.Budget.Models
import Raes.Budget.Reservation
import Raes.Budget.Accounting
import Raes.Budget.Books
import Raes.Budget.Ledger
import Raes.Budget.Conservation
import Raes.Budget.Calls
import Raes.Budget.Runs
import Raes.Lib.Totals
import Raes.Lib.ThreeWay
import Raes.Realization.ValueEquality
import Raes.Scheduler.ConcurrentState
import Raes.Scheduler.ConcurrentMerge
import Raes.Scheduler.ConcurrentCommits
import Raes.Time.Coordinator
import Raes.Time.CoordinatorRuns
import Raes.Orchestration.Steps
import Raes.Orchestration.WorkflowChecks
import Raes.Orchestration.AcceptedWorkflow
import Raes.Orchestration.ControlRuns
import Raes.Control.EffectRequests
import Raes.Control.EffectComposition
import Raes.Control.Composition
import Raes.Control.OrderIndependence
import Raes.Control.FailClosed
import Raes.Crossing.MultiProfile
import Raes.Lib.BranchingBisimulation
import Raes.Crossing.MultiAbstract
import Raes.Crossing.MultiConcrete
import Raes.Crossing.MultiInvariant
import Raes.Crossing.MultiRefinement
import Raes.Crossing.MultiEffects
import Raes.Store.RuntimeDecisions
import Raes.Store.DecisionRuns
import Raes.Store.DecisionLedger
import Raes.Observation.Demand
import Raes.Observation.Resolution
import Raes.Observation.Narrowest
import Raes.Observation.Effective
import Raes.Observation.Mandatory
import Raes.Observation.RuleOrder
import Raes.Replacement.Plans
import Raes.Replacement.Runs
import Raes.Replacement.Reconcile
import Raes.Replacement.Accounts
import Raes.Replacement.AccountedOnce
import Raes.Replacement.Reordering
import Raes.FlowControl.Relation
import Raes.FlowControl.Obligations
import Raes.Source.NodeGraph
import Raes.Source.MappingKeyAnalyzer
import Raes.Source.EffectiveMappings
import Raes.Source.AnalyzerSound
import Raes.Source.Normalized
import Raes.Graph.CyclicComponents
import Raes.Graph.TarjanComponents
import Raes.Graph.StableOrderSpec
import Raes.Planner.DeleteOrder
import Raes.Satisfiability.Solver
import Raes.Satisfiability.SolverChecks
import Raes.Satisfiability.Canonical
import Raes.Store.UnresolvedIndex
import Raes.Mutation.Cancellation
import Raes.Outcome.Projection
import Raes.Outcome.History
import Raes.Outcome.Replay
import Raes.Registry.Model
import Raes.Registry.Resolution
import Raes.Registry.Pinned
import Raes.Registry.LockedImports
import Raes.Mixed.History
import Raes.Mixed.Handoff
import Raes.Mixed.Phase
import Raes.Mixed.Confirmation
import Raes.Mixed.Settlement
import Raes.Mixed.Advance
import Raes.Mixed.Runs
import Raes.Lib.ChangeFeed
import Raes.Store.ChangeFeed
import Raes.Store.CommitRetries
import Raes.Lib.RejectionSampling
import Raes.Random.Engine
import Raes.Random.Batch
import Raes.ExploitPath.EvidenceOrder
import Raes.ExploitPath.IterationOrder
import Raes.Orchestration.BranchConvergence
import Raes.Realization.ScopeLookup
import Raes.Realization.HistoryCosts
import Raes.Factorial.Conditions
import Raes.Factorial.Expansion
import Raes.Realization.SemanticAddress
import Raes.Concepts.Quantification
import Raes.FlowControl.Lineage
import Raes.Scheduler.ActivityWindows
import Raes.Composition.Context
import Raes.Lib.DepthFirst
import Raes.Composition.Closure
import Raes.Composition.ClosureExact
import Raes.Composition.NestingLimit
import Raes.RuntimeFacts.BindingPlane
import Raes.RuntimeFacts.BindingRuns
import Raes.Difficulty.DecisionRuns
import Raes.Parameters.Derivation
import Raes.Parameters.Substitution
import Raes.Parameters.Replay
import Raes.Parameters.FiniteImage
import Raes.Envelope.DomainInclusion
import Raes.Orchestration.ResultHistory
import Raes.Source.GraphBounds
import Raes.Registry.SuppliedSources


