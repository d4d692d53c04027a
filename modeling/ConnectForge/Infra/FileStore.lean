import Mathlib.Data.String.Basic
import ConnectForge.Core.LogStore
import ConnectForge.Data.OrderedMap
import ConnectForge.Infra.Partition

namespace ConnectForge.Infra

open Data

/-! The file store as a whole. -/

structure StoredPartition where
  state : PartitionState
  dir : Directory
deriving DecidableEq

structure TopicState where
  config : TopicConfig
  partitions : List StoredPartition

structure FileLogStore where
  topics : OrderedMap String TopicState
  /-- The totals are `u64`: they count fewer than 2^64 records. -/
  fetchedTotal : Nat
  producedTotal : Nat

namespace FileLogStore

def new : FileLogStore := { topics := .empty, fetchedTotal := 0, producedTotal := 0 }

/-- File operations that only have to succeed, one after the other. -/
def performs : Nat → List (Option Fault) → Except IoError Unit
  | 0, _ => .ok ()
  | count + 1, faults =>
      match faults.head?.join with
      | some fault => .error fault.reason
      | none => performs count faults.tail

theorem performs_quiet (count : Nat) : performs count [] = .ok () := by
  induction count with
  | zero => rfl
  | succ count ih => exact ih

/-- Create the topic's directory, its `topic.json` and a directory for each
partition. -/
def createTopic (store : FileLogStore) (config : TopicConfig) (faults : List (Option Fault)) :
    Except PortError Bool × FileLogStore :=
  match store.topics.find? config.name.asStr with
  | some _ => (.ok false, store)
  | none =>
      match performs (2 + config.partitions) faults with
      | .error reason => (.error (ioErr reason), store)
      | .ok () =>
          let partitions := List.replicate config.partitions
            { state := PartitionState.fresh, dir := Directory.empty }
          (.ok true, { store with
            topics := store.topics.insert config.name.asStr { config, partitions } })

def append (store : FileLogStore) (topic : TopicName) (partition : Nat)
    (records : List ProduceRecord) (timestamp : DateTime) (faults : List (Option Fault)) :
    Option (Except PortError AppendOutcome × FileLogStore) :=
  match store.topics.find? topic.asStr with
  | none => some (.error (.notFound topic.asStr), store)
  | some state =>
      match state.partitions[partition]? with
      | none => some (.error (noPartition topic partition), store)
      | some part =>
          match part.state.append state.config.retention records timestamp
              { dir := part.dir, faults } with
          | none => none
          | some (result, after, disk) =>
              let partitions := state.partitions.set partition { state := after, dir := disk.dir }
              let topics := store.topics.insert topic.asStr { state with partitions }
              match result with
              | .error reason => some (.error reason, { store with topics })
              | .ok outcome => some (.ok outcome, { store with
                  topics
                  producedTotal := store.producedTotal + outcome.records.length })

def fetch (store : FileLogStore) (topic : TopicName) (partition start max : Nat) :
    Except PortError FetchResult × FileLogStore :=
  match store.topics.find? topic.asStr with
  | none => (.error (.notFound topic.asStr), store)
  | some state =>
      match state.partitions[partition]? with
      | none => (.error (noPartition topic partition), store)
      | some part =>
          match part.state.fetch start max part.dir with
          | .error reason => (.error reason, store)
          | .ok result =>
              (.ok result, { store with fetchedTotal := store.fetchedTotal + result.records.length })

def stats (store : FileLogStore) : LogStats where
  topics := store.topics.entries.length
  partitions := (store.topics.values.map fun topic => topic.partitions.length).sum
  records := (store.topics.values.map fun topic =>
    (topic.partitions.map fun part => part.state.totalRecords).sum).sum
  segments := (store.topics.values.map fun topic =>
    (topic.partitions.map fun part => part.state.segments.length).sum).sum
  producedTotal := store.producedTotal
  fetchedTotal := store.fetchedTotal

/-- The store with the I/O errors its next operation meets. -/
def handle (faults : List (Option Fault)) :
    (request : StoreCall) → FileLogStore → Option (request.Answer × FileLogStore)
  | .createTopic config, store => some (store.createTopic config faults)
  | .topics, store => some (.ok (store.topics.values.map TopicState.config), store)
  | .partitionCount topic, store =>
      some (.ok ((store.topics.find? topic.asStr).map fun topic => topic.config.partitions), store)
  | .append topic partition records timestamp, store =>
      store.append topic partition records timestamp faults
  | .fetch topic partition start max, store => some (store.fetch topic partition start max)
  | .stats, store => some (.ok store.stats, store)

end FileLogStore

end ConnectForge.Infra
