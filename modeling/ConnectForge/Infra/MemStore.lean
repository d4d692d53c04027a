import Mathlib.Data.String.Basic
import ConnectForge.Core.LogStore
import ConnectForge.Data.OrderedMap

namespace ConnectForge.Infra

open Data

/-! The in-memory log store. -/

structure Partition where
  records : List Record
  startOffset : Nat
  nextOffset : Nat
  segments : Nat
  recordsInActiveSegment : Nat
deriving DecidableEq

namespace Partition

def default : Partition where
  records := []
  startOffset := 0
  nextOffset := 0
  segments := 0
  recordsInActiveSegment := 0

def push (segmentMax : Nat) (part : Partition) (record : Record) : Partition :=
  let rolls := part.segments = 0 ∨ segmentMax ≤ part.recordsInActiveSegment
  { part with
    segments := if rolls then part.segments + 1 else part.segments
    recordsInActiveSegment := (if rolls then 0 else part.recordsInActiveSegment) + 1
    nextOffset := part.nextOffset + 1
    records := part.records ++ [record] }

def prune (maxRecords next : Nat) : List Record → Nat → Bool → List Record × Nat × Bool
  | head :: second :: rest, start, pruned =>
      if maxRecords < next - start then prune maxRecords next (second :: rest) (start + 1) true
      else (head :: second :: rest, start, pruned)
  | records, start, pruned => (records, start, pruned)

def append (part : Partition) (records : List Record) (segmentMax maxRecords : Nat) :
    Option Nat × Partition :=
  let part := records.foldl (push segmentMax) part
  if maxRecords = 0 then (none, part)
  else
    match prune maxRecords part.nextOffset part.records part.startOffset false with
    | (records, startOffset, pruned) =>
        (if pruned then some startOffset else none, { part with records, startOffset })

def fetch (part : Partition) (start max : Nat) : FetchResult :=
  let effectiveFrom := Nat.max start part.startOffset
  let records := (part.records.filter fun record => effectiveFrom ≤ record.offset).take max
  { records
    nextOffset := nextAfter records effectiveFrom
    highWatermark := part.nextOffset }

end Partition

structure Topic where
  config : TopicConfig
  partitions : List Partition

structure MemoryLogStore where
  topics : OrderedMap String Topic
  /-- The totals are `u64`: they count fewer than 2^64 records. -/
  producedTotal : Nat
  fetchedTotal : Nat

namespace MemoryLogStore

def new : MemoryLogStore := { topics := .empty, producedTotal := 0, fetchedTotal := 0 }

def createTopic (store : MemoryLogStore) (config : TopicConfig) :
    Except PortError Bool × MemoryLogStore :=
  match store.topics.find? config.name.asStr with
  | some _ => (.ok false, store)
  | none =>
      let partitions := List.replicate config.partitions Partition.default
      (.ok true, { store with topics := store.topics.insert config.name.asStr { config, partitions } })

def append (store : MemoryLogStore) (topic : TopicName) (partition : Nat)
    (records : List ProduceRecord) (timestamp : DateTime) :
    Option (Except PortError AppendOutcome × MemoryLogStore) :=
  match store.topics.find? topic.asStr with
  | none => some (.error (.notFound topic.asStr), store)
  | some state =>
      match state.partitions[partition]? with
      | none => some (.error (noPartition topic partition), store)
      | some part =>
          match materialize part.nextOffset timestamp records with
          | none => none
          | some materialized =>
              match part.append materialized state.config.retention.segmentMaxRecords
                  state.config.retention.maxRecords with
              | (truncatedTo, part) =>
                  let partitions := state.partitions.set partition part
                  some (.ok { records := materialized, truncatedTo }, { store with
                    topics := store.topics.insert topic.asStr { state with partitions }
                    producedTotal := store.producedTotal + records.length })

def fetch (store : MemoryLogStore) (topic : TopicName) (partition start max : Nat) :
    Except PortError FetchResult × MemoryLogStore :=
  match store.topics.find? topic.asStr with
  | none => (.error (.notFound topic.asStr), store)
  | some state =>
      match state.partitions[partition]? with
      | none => (.error (noPartition topic partition), store)
      | some part =>
          let result := part.fetch start max
          (.ok result, { store with fetchedTotal := store.fetchedTotal + result.records.length })

def stats (store : MemoryLogStore) : LogStats where
  topics := store.topics.entries.length
  partitions := (store.topics.values.map fun topic => topic.partitions.length).sum
  records := (store.topics.values.map fun topic =>
    (topic.partitions.map fun part => part.nextOffset - part.startOffset).sum).sum
  segments := (store.topics.values.map fun topic => (topic.partitions.map Partition.segments).sum).sum
  producedTotal := store.producedTotal
  fetchedTotal := store.fetchedTotal

def handle : (request : StoreCall) → MemoryLogStore → Option (request.Answer × MemoryLogStore)
  | .createTopic config, store => some (store.createTopic config)
  | .topics, store => some (.ok (store.topics.values.map Topic.config), store)
  | .partitionCount topic, store =>
      some (.ok ((store.topics.find? topic.asStr).map fun topic => topic.config.partitions), store)
  | .append topic partition records timestamp, store => store.append topic partition records timestamp
  | .fetch topic partition start max, store => some (store.fetch topic partition start max)
  | .stats, store => some (.ok store.stats, store)

end MemoryLogStore

end ConnectForge.Infra
