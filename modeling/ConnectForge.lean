import ConnectForge.Types.Units
import ConnectForge.Types.Record
import ConnectForge.Data.LittleEndian
import ConnectForge.Data.Framing
import ConnectForge.Core.Error
import ConnectForge.Infra.Disk
import ConnectForge.Infra.Codec
import ConnectForge.Infra.Segment
import ConnectForge.Infra.SegmentErrors
import ConnectForge.Infra.SegmentScan
import ConnectForge.Infra.Partition
import ConnectForge.Infra.SegmentedLog
import ConnectForge.Infra.PartitionSpec
import ConnectForge.Infra.Recovery
import ConnectForge.Infra.Legible
import ConnectForge.Infra.LogRepresentation
import ConnectForge.Infra.CrashRecovery
import ConnectForge.Data.Tiles
import ConnectForge.Infra.SegmentTiles
import ConnectForge.Infra.Pruning
import ConnectForge.Interaction.Program
import ConnectForge.Interaction.Session
import ConnectForge.Types.Connector
import ConnectForge.Core.Retry
import ConnectForge.Core.PartitionLog
import ConnectForge.Core.Sink
import ConnectForge.Core.SinkWorld
import ConnectForge.Core.SinkRounds
import ConnectForge.Core.AtLeastOnce
import ConnectForge.Core.AtMostOnce
import ConnectForge.Core.DeadLetters
import ConnectForge.Core.Drain
import ConnectForge.Interaction.Pool
import ConnectForge.Core.Status
import ConnectForge.Core.Source
import ConnectForge.Infra.Generator
import ConnectForge.Infra.Connectors
import ConnectForge.Data.Keyed
import ConnectForge.Infra.Checkpoint
import ConnectForge.Data.OrderedMap
import ConnectForge.Core.LogStore
import ConnectForge.Infra.MemStore
import ConnectForge.Infra.FileStore
import ConnectForge.Infra.StoreEquivalence
import ConnectForge.Core.Engine
import ConnectForge.Infra.StoreRuns
import ConnectForge.Infra.ProduceRetries
import ConnectForge.Infra.FailedAppend
import ConnectForge.Core.StoreSpec
import ConnectForge.Infra.StoreRefinement
import ConnectForge.Infra.StoreInvariants
import ConnectForge.Infra.Retention
import ConnectForge.Infra.Stats
import ConnectForge.Core.Tailing
import ConnectForge.Infra.Following
import ConnectForge.Infra.CaughtUp
import ConnectForge.Interaction.Tasks
import ConnectForge.Broker.World
import ConnectForge.Broker.Routing
import ConnectForge.Data.RoundRobin
import ConnectForge.Broker.Turns
import ConnectForge.Broker.Capacity
import ConnectForge.Broker.LiveEvents
import ConnectForge.Data.Tree
import ConnectForge.Infra.FileTree
import ConnectForge.Infra.RootedStore
import ConnectForge.Infra.Layout
import ConnectForge.Infra.Reopening
import ConnectForge.Infra.TopicJson
import ConnectForge.Infra.TopicDirectories
import ConnectForge.Infra.CreateCrash
import ConnectForge.Resilience.Breaker
import ConnectForge.Data.TokenBucket
import ConnectForge.Resilience.Limiter
import ConnectForge.Resilience.Bulkhead
import ConnectForge.Resilience.Backoff
import ConnectForge.Resilience.Retry
import ConnectForge.Api.Registry
import ConnectForge.Api.Topics
import ConnectForge.Api.Records
import ConnectForge.Node.Pipeline
import ConnectForge.Node.Accounting
import ConnectForge.Node.Alone
import ConnectForge.Node.Progress
import ConnectForge.Node.Supervisor
import ConnectForge.Node.Demo
import ConnectForge.Broker.ValidRecords
import ConnectForge.Data.Volume
import ConnectForge.Infra.CheckpointFiles
import ConnectForge.Infra.CheckpointCrashes
import ConnectForge.Infra.CheckpointRaces
import ConnectForge.Data.Broadcast
import ConnectForge.Infra.Bus
import ConnectForge.Interaction.Ledger
import ConnectForge.Broker.Subscribers
import ConnectForge.Broker.Admission
import ConnectForge.Interaction.Loop
import ConnectForge.Broker.History
import ConnectForge.Broker.Serving
import ConnectForge.Infra.Durability
import ConnectForge.Broker.Lifetimes
import ConnectForge.Interaction.Deadlines
import ConnectForge.Broker.Deadlines
import ConnectForge.Api.Operations
import ConnectForge.Node.Restarts
