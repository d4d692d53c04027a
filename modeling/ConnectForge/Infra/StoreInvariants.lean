import ConnectForge.Infra.StoreRefinement

namespace ConnectForge.Infra

open Data

/-! What holds of each partition of a store, after every call that keeps it. -/

def Validated : StoreCall → Prop
  | .createTopic config => config.retention.validate = .ok ()
  | _ => True

section Topics

variable {Topic Part : Type} {config : Topic → TopicConfig} {partitions : Topic → List Part}
  {good : RetentionPolicy → Part → Prop} {topics : OrderedMap String Topic}

/-- A topic with a valid policy whose partitions are all of a kind. -/
structure TopicEvery (config : Topic → TopicConfig) (partitions : Topic → List Part)
    (good : RetentionPolicy → Part → Prop) (topic : Topic) : Prop where
  valid : (config topic).retention.validate = .ok ()
  partitions : ∀ part ∈ partitions topic, good (config topic).retention part

theorem every_created (every : topics.All (TopicEvery config partitions good)) {name : String}
    {made : Topic} (valid : (config made).retention.validate = .ok ()) {first : Part} {count : Nat}
    (shape : partitions made = List.replicate count first)
    (fresh : good (config made).retention first) :
    (topics.insert name made).All (TopicEvery config partitions good) := by
  refine every.insert _ ⟨valid, ?_⟩
  intro part member
  rw [shape] at member
  rw [List.eq_of_mem_replicate member]
  exact fresh

theorem every_updated (every : topics.All (TopicEvery config partitions good)) {name : String}
    {state after : Topic} (found : topics.find? name = some state)
    (same : config after = config state) {partition : Nat} {part : Part}
    (updated : partitions after = (partitions state).set partition part)
    (holds : good (config state).retention part) :
    (topics.insert name after).All (TopicEvery config partitions good) := by
  have before := every.find? found
  refine every.insert _ ⟨by rw [same]; exact before.valid, ?_⟩
  intro other member
  rw [updated] at member
  rw [same]
  rcases List.mem_or_eq_of_mem_set member with old | rfl
  · exact before.partitions other old
  · exact holds

end Topics

/-- What each partition of a memory store is, over its calls. -/
theorem MemoryLogStore.every_handle {good : RetentionPolicy → Partition → Prop}
    (fresh : ∀ retention, good retention .default)
    (appends : ∀ {retention : RetentionPolicy} {part : Partition} {batch : List ProduceRecord}
      {timestamp : DateTime} {records : List Record}, retention.validate = .ok () → good retention part →
      materialize part.nextOffset timestamp batch = some records →
      good retention (part.append records retention.segmentMaxRecords retention.maxRecords).2)
    {store after : MemoryLogStore} {request : StoreCall} {answer : request.Answer}
    (every : store.topics.All (TopicEvery Topic.config Topic.partitions good))
    (validated : Validated request) (called : store.handle request = some (answer, after)) :
    after.topics.All (TopicEvery Topic.config Topic.partitions good) := by
  cases request with
  | createTopic config =>
      have created := store.createTopic_after config
      rw [Option.some.inj called] at created
      rcases created with rfl | rfl
      · exact every
      · exact every_created every validated rfl (fresh _)
  | append topic partition records timestamp =>
      rcases append_cases called with ⟨_, rfl⟩ |
        ⟨state, part, materialized, found, here, numbers, _, rfl⟩
      · exact every
      · have before := every.find? found
        exact every_updated every found rfl rfl (appends before.valid
          (before.partitions part (List.mem_of_getElem? here)) numbers)
  | fetch topic partition start max =>
      obtain rfl := fetch_after (Option.some.inj called)
      exact every
  | topics | partitionCount topic | stats =>
      cases called
      exact every

/-- What each partition of a file store is, over its calls without I/O errors. -/
theorem FileLogStore.every_handle {good : RetentionPolicy → StoredPartition → Prop}
    {allowed : StoreCall → Prop}
    (valid : ∀ {config}, allowed (.createTopic config) → config.retention.validate = .ok ())
    (fresh : ∀ retention, good retention { state := .fresh, dir := .empty })
    (appends : ∀ {retention : RetentionPolicy} {part : StoredPartition} {topic : TopicName}
      {partition : Nat} {batch : List ProduceRecord} {timestamp : DateTime}
      {result : Except PortError AppendOutcome} {next : PartitionState} {disk : Disk},
      allowed (.append topic partition batch timestamp) → retention.validate = .ok () →
      good retention part →
      part.state.append retention batch timestamp { dir := part.dir, faults := [] } =
        some (result, next, disk) →
      good retention { state := next, dir := disk.dir })
    {store after : FileLogStore} {request : StoreCall} {answer : request.Answer}
    (every : store.topics.All (TopicEvery TopicState.config TopicState.partitions good))
    (permitted : allowed request) (called : store.handle [] request = some (answer, after)) :
    after.topics.All (TopicEvery TopicState.config TopicState.partitions good) := by
  cases request with
  | createTopic config =>
      have created := store.createTopic_after config
      rw [Option.some.inj called] at created
      rcases created with rfl | rfl
      · exact every
      · exact every_created every (valid permitted) rfl (fresh _)
  | append topic partition records timestamp =>
      rcases append_cases called with ⟨_, rfl⟩ | ⟨state, part, next, disk, found, here, appended, rfl⟩
      · exact every
      · have before := every.find? found
        exact every_updated every found rfl rfl (appends permitted before.valid
          (before.partitions part (List.mem_of_getElem? here)) appended)
  | fetch topic partition start max =>
      obtain rfl := fetch_after (Option.some.inj called)
      exact every
  | topics | partitionCount topic | stats =>
      cases called
      exact every

end ConnectForge.Infra
