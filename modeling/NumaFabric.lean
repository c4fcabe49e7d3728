import NumaFabric.FaultState
import NumaFabric.FaultRun
import NumaFabric.LedgerTotal
import NumaFabric.LedgerCounter
import NumaFabric.CoreTypes
import NumaFabric.CoreErrors
import NumaFabric.ReservationStore
import NumaFabric.ReservationOutcome
import NumaFabric.ReservationIdentity
import NumaFabric.ReservationLedger
import NumaFabric.ReservationTotals
import NumaFabric.ReservationClosure
import NumaFabric.ReservationAtomicity
import NumaFabric.ByteCodec
import NumaFabric.FrameCodec
import NumaFabric.FrameStream
import NumaFabric.FrameSegmentation
import NumaFabric.ShiftRegister
import NumaFabric.BurstDetection
import NumaFabric.ChecksumReference
import NumaFabric.PersistenceCodec
import NumaFabric.PersistenceRoundtrip
import NumaFabric.PersistenceCanonical
import NumaFabric.PersistenceIdentity
import NumaFabric.AffinitySet
import NumaFabric.BackendInterface
import NumaFabric.MemoryManager
import NumaFabric.MigrationManager
import NumaFabric.MemoryOutcome
import NumaFabric.MigrationOutcome
import NumaFabric.MemoryLedger
import NumaFabric.MemoryAccounting
import NumaFabric.AccountingHorizon
import NumaFabric.MigrationCommit
import NumaFabric.TokenOwnership
import NumaFabric.MemoryOwnership
import NumaFabric.MigrationRace
import NumaFabric.RaceSafety
import NumaFabric.WorkerRegistry
import NumaFabric.RegistryFencing
import NumaFabric.TopologyModel
import NumaFabric.TopologyDigest
import NumaFabric.PlacementEngine
import NumaFabric.WireCodec
import NumaFabric.WireCursor
import NumaFabric.RuntimeFacade
import NumaFabric.RuntimeRecovery
import NumaFabric.RecoveryAtomicity
import NumaFabric.RuntimeOperations
import NumaFabric.RuntimeFrames
import NumaFabric.PlacementChoice
import NumaFabric.PlacementSoundness
import NumaFabric.PlacementRanking
import NumaFabric.PlacementDeterminism
import NumaFabric.PlacementExplanation
import NumaFabric.SyntheticBackend
import NumaFabric.SyntheticConservation
import NumaFabric.SyntheticDistances
import NumaFabric.SyntheticResidence
import NumaFabric.AffinityMasks
import NumaFabric.AffinityUpdates
import NumaFabric.BindingCoverage
import NumaFabric.PlannedExecution
import NumaFabric.MemoryFrames
import NumaFabric.LocalityFreshness
import NumaFabric.LifecycleConformance
import NumaFabric.TerminalRegions
import NumaFabric.RegionWrites
import NumaFabric.MigrationSettlement
import NumaFabric.MemoryGenerations
import NumaFabric.MigrationRollback
import NumaFabric.KeyedTable
import NumaFabric.SortedLists
import NumaFabric.TopologyCanonical
import NumaFabric.WindowsBackend
import NumaFabric.WindowsDiscovery
import NumaFabric.RecoveryRebuild
import NumaFabric.RecoveryRefinement
import NumaFabric.PlannerView
import NumaFabric.CoordinatorProtocol
import NumaFabric.CoordinatorConnection
import NumaFabric.CoordinatorAuthority
import NumaFabric.CoordinatorFencing
import NumaFabric.EpochFencing
import NumaFabric.RecoveryAuthority
import NumaFabric.CounterHistory
import NumaFabric.BindingIdentities
import NumaFabric.ConnectionLoss
import NumaFabric.CoordinatorReplies
import NumaFabric.ReservationIsolation
import NumaFabric.WorkerSession
import NumaFabric.SessionAgreement
import NumaFabric.SessionCounts
import NumaFabric.SessionRejections
import NumaFabric.JsonTermination
import NumaFabric.JsonRoundtrip
import NumaFabric.ThreadPool
import NumaFabric.MemoryThreads
import NumaFabric.ThreadSafety
import NumaFabric.StepSimulation
import NumaFabric.FramePipe
import NumaFabric.MessageSessions
import NumaFabric.SessionNetwork
import NumaFabric.NetworkRefinement
import NumaFabric.NetworkProgress
import NumaFabric.PersistenceCrash
import NumaFabric.CoordinatorRestart
import NumaFabric.CoordinatorFrames
import NumaFabric.PlacementPromise
import NumaFabric.WorkerProgram
import NumaFabric.WorkerBooks
import NumaFabric.WorkerFleet
import NumaFabric.FleetRequests
import NumaFabric.FleetSessions
import NumaFabric.FleetProgress
import NumaFabric.FleetReturns
