import ConnectForge.Infra.ProduceRetries
import ConnectForge.Infra.Pruning
import ConnectForge.Infra.Retention
import ConnectForge.Infra.StoreInvariants

namespace ConnectForge

open Data

/-! The counters of a store next to what the store holds. -/

namespace StoreCall

def produced : (request : StoreCall) → request.Answer → Nat
  | createTopic _, _ => 0
  | topics, _ => 0
  | partitionCount _, _ => 0
  | append _ _ records _, answer => answer.toOption.elim 0 fun _ => records.length
  | fetch _ _ _ _, _ => 0
  | stats, _ => 0

def fetched : (request : StoreCall) → request.Answer → Nat
  | createTopic _, _ => 0
  | topics, _ => 0
  | partitionCount _, _ => 0
  | append _ _ _ _, _ => 0
  | fetch _ _ _ _, answer => answer.toOption.elim 0 fun result => result.records.length
  | stats, _ => 0

end StoreCall

/-- The states of a store, each with the records its calls have appended and
returned so far. -/
inductive Tallied {Store : Type}
    (answers : (request : StoreCall) → Store → request.Answer → Store → Prop) (new : Store) :
    Store → Nat → Nat → Prop where
  | opened : Tallied answers new new 0 0
  | call {store after produced fetched} {request : StoreCall} {answer : request.Answer}
      (earlier : Tallied answers new store produced fetched)
      (answered : answers request store answer after) :
      Tallied answers new after (produced + request.produced answer) (fetched + request.fetched answer)

/-- The largest number of records a fetch can ask for. -/
def unlimited : Nat := u64Modulus - 1

/-- How many runs of consecutive offsets, each starting at a multiple of their
size, have one of the records in them. -/
def liveSegments (size : Nat) (records : List Record) : Nat :=
  ((records.map Record.offset).toFinset.image (· / size)).card

theorem liveSegments_numbered (size : Nat) {start : Nat} {records : List Record}
    (numbered : Numbered start records) :
    liveSegments size records = blocks size start (start + records.length) := by
  rw [liveSegments, numbered, List.toFinset_range'_1]
  rfl

theorem materialize_bounded {next : Nat} {timestamp : DateTime} {batch : List ProduceRecord}
    {records : List Record} (room : next < u64Modulus)
    (materialized : materialize next timestamp batch = some records) :
    next + records.length < u64Modulus := by
  obtain ⟨_, numbered, bounded⟩ := materialize_numbered materialized
  rcases List.eq_nil_or_concat' records with rfl | ⟨front, last, rfl⟩
  · exact room
  · have within := bounded last (List.mem_append_right _ (List.mem_singleton_self last))
    have offset : last.offset = next + front.length := by
      have offsets := congrArg List.getLast? numbered
      simpa [List.getLast?_range'] using offsets
    rw [List.length_append, List.length_singleton]
    omega

namespace Infra

section Tally

variable {Topic Part : Type} {config : Topic → TopicConfig} {partitions : Topic → List Part}
  {good : RetentionPolicy → Part → Prop} {topics : OrderedMap String Topic}
  {count count' : RetentionPolicy → Part → Nat}

def tally (config : Topic → TopicConfig) (partitions : Topic → List Part)
    (count : RetentionPolicy → Part → Nat) (topics : OrderedMap String Topic) : Nat :=
  (topics.values.map fun topic => ((partitions topic).map (count (config topic).retention)).sum).sum

theorem tally_eq_iff (every : topics.All (TopicEvery config partitions good))
    (below : ∀ {retention part}, retention.validate = .ok () → good retention part →
      count retention part ≤ count' retention part) :
    tally config partitions count topics = tally config partitions count' topics ↔
      ∀ topic ∈ topics.values, ∀ part ∈ partitions topic,
        count (config topic).retention part = count' (config topic).retention part := by
  have within : ∀ topic ∈ topics.values, ∀ part ∈ partitions topic,
      count (config topic).retention part ≤ count' (config topic).retention part := by
    intro topic member part inside
    obtain ⟨entry, listed, rfl⟩ := List.mem_map.mp member
    have holds := every entry listed
    exact below holds.valid (holds.partitions part inside)
  rw [tally, tally, sum_map_eq_iff fun topic member => List.sum_le_sum (within topic member)]
  exact forall₂_congr fun topic member => sum_map_eq_iff (within topic member)

theorem tally_congr (every : topics.All (TopicEvery config partitions good))
    (same : ∀ {retention part}, retention.validate = .ok () → good retention part →
      count retention part = count' retention part) :
    tally config partitions count topics = tally config partitions count' topics := by
  refine (tally_eq_iff every fun valid holds => Nat.le_of_eq (same valid holds)).mpr ?_
  intro topic member part inside
  obtain ⟨entry, listed, rfl⟩ := List.mem_map.mp member
  have holds := every entry listed
  exact same holds.valid (holds.partitions part inside)

end Tally

section Memory

variable {retention : RetentionPolicy} {part : Partition}

def Partition.retained (part : Partition) : List Record := (part.fetch 0 unlimited).records

/-- The segments of a memory partition, of which the last is the active one. -/
def Partition.Rolled (size : Nat) (part : Partition) : Prop :=
  part.segments = 0 ∧ part.nextOffset = 0 ∨
    ∃ full, part.segments = full + 1 ∧
      part.nextOffset = full * size + part.recordsInActiveSegment ∧
      0 < part.recordsInActiveSegment ∧ part.recordsInActiveSegment ≤ size

theorem Partition.push_opens {size : Nat} (record : Record)
    (rolls : part.segments = 0 ∨ size ≤ part.recordsInActiveSegment) :
    part.push size record = { part with
      segments := part.segments + 1
      recordsInActiveSegment := 1
      nextOffset := part.nextOffset + 1
      records := part.records ++ [record] } := by
  simp only [Partition.push, rolls, ↓reduceIte, Nat.zero_add]

theorem Partition.push_stays {size : Nat} (record : Record)
    (stays : ¬ (part.segments = 0 ∨ size ≤ part.recordsInActiveSegment)) :
    part.push size record = { part with
      recordsInActiveSegment := part.recordsInActiveSegment + 1
      nextOffset := part.nextOffset + 1
      records := part.records ++ [record] } := by
  simp only [Partition.push, stays, ↓reduceIte]

theorem Partition.Rolled.push {size : Nat} (positive : 0 < size) (rolled : part.Rolled size)
    (record : Record) : (part.push size record).Rolled size := by
  by_cases rolls : part.segments = 0 ∨ size ≤ part.recordsInActiveSegment
  · rw [part.push_opens record rolls]
    refine .inr ⟨part.segments, rfl, ?_, Nat.one_pos, positive⟩
    rcases rolled with ⟨none, zero⟩ | ⟨full, segments, next, _, within⟩
    · dsimp only
      rw [none, zero, Nat.zero_mul]
    · -- The active segment is full when another one is opened.
      have same : part.recordsInActiveSegment = size := by omega
      dsimp only
      rw [next, segments, same, Nat.succ_mul]
  · rw [part.push_stays record rolls]
    rcases rolled with ⟨none, _⟩ | ⟨full, segments, next, _, _⟩
    · exact absurd (.inl none) rolls
    · refine .inr ⟨full, segments, ?_, Nat.succ_pos _, ?_⟩
      · dsimp only
        rw [next, Nat.add_assoc]
      · dsimp only
        omega

theorem Partition.Rolled.foldl {size : Nat} (positive : 0 < size) (rolled : part.Rolled size)
    (records : List Record) : (records.foldl (Partition.push size) part).Rolled size := by
  induction records generalizing part with
  | nil => exact rolled
  | cons record rest ih => exact ih (rolled.push positive record)

theorem Partition.Rolled.append {size : Nat} (positive : 0 < size) (rolled : part.Rolled size)
    (records : List Record) (maxRecords : Nat) : (part.append records size maxRecords).2.Rolled size := by
  have pushed := rolled.foldl positive records
  unfold Partition.append
  dsimp only
  split <;> exact pushed

/-- The counter has a segment for every block of offsets handed out, kept or
not. -/
theorem Partition.Rolled.segments {size : Nat} (positive : 0 < size) (rolled : part.Rolled size) :
    part.segments = blocks size 0 part.nextOffset := by
  rcases rolled with ⟨none, zero⟩ | ⟨full, segments, next, filled, within⟩
  · rw [none, zero, blocks_empty (Nat.le_refl 0)]
  · rw [segments, blocks_eq positive (by omega), next, Nat.zero_div, Nat.sub_zero]
    have last : (full * size + part.recordsInActiveSegment - 1) / size = full := by
      apply Nat.div_eq_of_lt_le
      · omega
      · rw [Nat.succ_mul]
        omega
    rw [last]

structure Partition.Counted (retention : RetentionPolicy) (part : Partition) : Prop where
  kept : ∃ log, part.Keeps log
  holds : part.Holds retention
  rolled : part.Rolled retention.segmentMaxRecords
  bounded : part.nextOffset < u64Modulus

theorem Partition.Counted.fresh (retention : RetentionPolicy) : Partition.default.Counted retention :=
  ⟨⟨_, .default⟩, .default retention, .inl ⟨rfl, rfl⟩, by decide⟩

theorem Partition.Counted.append (counted : part.Counted retention)
    (valid : retention.validate = .ok ()) {batch : List ProduceRecord} {timestamp : DateTime}
    {records : List Record} (numbers : materialize part.nextOffset timestamp batch = some records) :
    (part.append records retention.segmentMaxRecords retention.maxRecords).2.Counted retention := by
  obtain ⟨log, kept⟩ := counted.kept
  obtain ⟨holds, next⟩ := counted.holds.append records
  have numbered := (materialize_numbered numbers).2.1
  rw [kept.next] at numbered
  obtain ⟨later, kept', _⟩ := kept.append numbered retention.segmentMaxRecords retention.maxRecords
  refine ⟨⟨later, kept'⟩, holds, counted.rolled.append (validate_positive valid) records _, ?_⟩
  rw [next]
  exact materialize_bounded counted.bounded numbers

theorem Partition.Counted.retained (counted : part.Counted retention) :
    part.retained.length = part.nextOffset - part.startOffset ∧
      Numbered part.startOffset part.retained := by
  obtain ⟨log, kept⟩ := counted.kept
  have start : Nat.max 0 log.start = log.start := Nat.zero_max _
  have bounded := counted.bounded
  rw [Partition.retained, kept.fetch, kept.start, kept.next]
  rw [kept.next] at bounded
  have numbered := log.slice_numbered 0 unlimited
  rw [start] at numbered
  refine ⟨(log.length_slice 0 unlimited).trans ?_, numbered⟩
  rw [start, unlimited]
  omega

theorem Partition.Counted.live (counted : part.Counted retention) :
    liveSegments retention.segmentMaxRecords part.retained =
      blocks retention.segmentMaxRecords part.startOffset part.nextOffset := by
  obtain ⟨length, numbered⟩ := counted.retained
  have total := counted.holds.total
  rw [liveSegments_numbered _ numbered, length, Nat.add_sub_cancel' (by omega)]

/-- Segments are counted right until the first of them is pruned away. -/
theorem Partition.Counted.segments_iff (counted : part.Counted retention)
    (valid : retention.validate = .ok ()) :
    liveSegments retention.segmentMaxRecords part.retained = part.segments ↔
      retention.maxRecords = 0 ∨
        part.nextOffset < retention.maxRecords + retention.segmentMaxRecords := by
  have positive := validate_positive valid
  have start := counted.holds.start
  rw [counted.live, counted.rolled.segments positive]
  rcases Nat.eq_zero_or_pos part.nextOffset with zero | written
  · rw [zero, blocks_empty (Nat.zero_le _), blocks_empty (Nat.le_refl 0)]
    exact iff_of_true rfl (.inr (by omega))
  · have below : part.startOffset < part.nextOffset := by
      rw [start]
      split <;> omega
    rw [blocks_eq positive below, blocks_eq positive written, Nat.zero_div]
    have bound : part.startOffset / retention.segmentMaxRecords ≤
        (part.nextOffset - 1) / retention.segmentMaxRecords := Nat.div_le_div_right (by omega)
    have first : part.startOffset / retention.segmentMaxRecords = 0 ↔
        part.startOffset < retention.segmentMaxRecords := by
      rw [Nat.div_eq_zero_iff]
      omega
    split at start
    · omega
    · omega

theorem Partition.Counted.live_le (counted : part.Counted retention)
    (valid : retention.validate = .ok ()) :
    liveSegments retention.segmentMaxRecords part.retained ≤ part.segments := by
  rw [counted.live, counted.rolled.segments (validate_positive valid)]
  exact blocks_mono (Nat.zero_le _)

end Memory

section File

variable {retention : RetentionPolicy} {part : StoredPartition}

def StoredPartition.retained (part : StoredPartition) : List Record :=
  (part.state.fetch 0 unlimited part.dir).toOption.elim [] FetchResult.records

structure StoredPartition.Counted (retention : RetentionPolicy) (part : StoredPartition) : Prop where
  inStep : InStep part
  tiled : part.state.Tiled retention.segmentMaxRecords part.dir

theorem StoredPartition.Counted.fresh (retention : RetentionPolicy) :
    StoredPartition.Counted retention { state := .fresh, dir := .empty } :=
  ⟨⟨.empty, rfl, rfl⟩, .fresh _⟩

theorem StoredPartition.Counted.append (counted : part.Counted retention)
    (valid : retention.validate = .ok ()) {batch : List ProduceRecord}
    (fits : ∀ record ∈ batch, record.Fits) {timestamp : DateTime}
    {result : Except PortError AppendOutcome} {next : PartitionState} {disk : Disk}
    (appended : part.state.append retention batch timestamp { dir := part.dir, faults := [] } =
      some (result, next, disk)) :
    StoredPartition.Counted retention { state := next, dir := disk.dir } := by
  obtain ⟨log, represented, stored⟩ := counted.inStep
  have tiled := counted.tiled
  rw [represented] at appended tiled
  obtain ⟨_, _, kept, _, _, _, _, _, _, _, rfl, same, files, _, _, outcome⟩ :=
    append_governed valid stored tiled fits appended
  exact ⟨⟨kept, same, files⟩, outcome.tiled⟩

theorem StoredPartition.Counted.retained (counted : part.Counted retention) :
    part.retained.length = part.state.totalRecords ∧
      Numbered part.state.startOffset part.retained := by
  obtain ⟨log, represented, stored⟩ := counted.inStep
  have start : Nat.max 0 log.view.start = log.start := Nat.zero_max _
  have bounded : log.next < u64Modulus := log.bounded
  have fetched : part.retained = log.view.slice 0 unlimited := by
    rw [StoredPartition.retained, represented, PartitionState.fetch_partition log stored]
    rfl
  have numbered := log.view.slice_numbered 0 unlimited
  rw [start] at numbered
  rw [fetched, represented]
  refine ⟨(log.view.length_slice 0 unlimited).trans ?_, numbered⟩
  rw [start, log.view_next, unlimited]
  change min _ _ = log.next - log.start
  omega

theorem StoredPartition.Counted.segments (counted : part.Counted retention)
    (valid : retention.validate = .ok ()) :
    part.state.segments.length = liveSegments retention.segmentMaxRecords part.retained := by
  obtain ⟨length, numbered⟩ := counted.retained
  obtain ⟨aligned, tiles, _⟩ := counted.tiled
  have count := tiles.length (validate_positive valid) aligned
  rw [List.length_map] at count
  rw [liveSegments_numbered _ numbered, length, PartitionState.totalRecords,
    Nat.add_sub_cancel' tiles.le, count]

end File

section Runs

theorem MemoryLogStore.handle_counts {store after : MemoryLogStore} {request : StoreCall}
    {answer : request.Answer} (called : store.handle request = some (answer, after)) :
    after.producedTotal = store.producedTotal + request.produced answer ∧
      after.fetchedTotal = store.fetchedTotal + request.fetched answer := by
  cases request with
  | createTopic config =>
      have created := store.createTopic_after config
      rw [Option.some.inj called] at created
      rcases created with rfl | rfl <;> exact ⟨rfl, rfl⟩
  | append topic partition records timestamp =>
      rcases append_cases called with ⟨⟨reason, rfl⟩, rfl⟩ | ⟨_, _, _, _, _, _, rfl, rfl⟩ <;>
        exact ⟨rfl, rfl⟩
  | fetch topic partition start max =>
      obtain rfl := fetch_after (Option.some.inj called)
      exact ⟨rfl, rfl⟩
  | topics | partitionCount topic | stats =>
      cases called
      exact ⟨rfl, rfl⟩

theorem PartitionState.append_length {part next : PartitionState} {retention : RetentionPolicy}
    {batch : List ProduceRecord} {timestamp : DateTime} {outcome : AppendOutcome} {disk later : Disk}
    (appended : part.append retention batch timestamp disk = some (.ok outcome, next, later)) :
    outcome.records.length = batch.length := by
  unfold PartitionState.append at appended
  split at appended
  · cases appended
  next numbers =>
    split at appended
    · cases appended
    · split at appended
      · cases appended
      · cases appended
        exact (materialize_numbered numbers).1

theorem FileLogStore.handle_counts {store after : FileLogStore} {request : StoreCall}
    {answer : request.Answer} (called : store.handle [] request = some (answer, after)) :
    after.producedTotal = store.producedTotal + request.produced answer ∧
      after.fetchedTotal = store.fetchedTotal + request.fetched answer := by
  cases request with
  | createTopic config =>
      have created := store.createTopic_after config
      rw [Option.some.inj called] at created
      rcases created with rfl | rfl <;> exact ⟨rfl, rfl⟩
  | append topic partition records timestamp =>
      rcases append_cases called with ⟨⟨reason, rfl⟩, rfl⟩ | ⟨_, _, _, _, _, _, appended, rfl⟩
      · exact ⟨rfl, rfl⟩
      · refine ⟨?_, rfl⟩
        cases answer with
        | error reason => rfl
        | ok outcome => exact congrArg _ (PartitionState.append_length appended)
  | fetch topic partition start max =>
      obtain rfl := fetch_after (Option.some.inj called)
      exact ⟨rfl, rfl⟩
  | topics | partitionCount topic | stats =>
      cases called
      exact ⟨rfl, rfl⟩

theorem MemoryLogStore.tallied {store : MemoryLogStore} {produced fetched : Nat}
    (run : Tallied (fun request store answer after => Validated request ∧
      MemoryLogStore.handle request store = some (answer, after)) .new store produced fetched) :
    store.topics.All (TopicEvery Topic.config Topic.partitions Partition.Counted) ∧
      store.producedTotal = produced ∧ store.fetchedTotal = fetched := by
  induction run with
  | opened => exact ⟨.empty, rfl, rfl⟩
  | call _ answered ih =>
      obtain ⟨every, appended, returned⟩ := ih
      obtain ⟨produced, fetched⟩ := handle_counts answered.2
      refine ⟨every_handle .fresh (fun valid counted => counted.append valid) every answered.1 answered.2,
        ?_, ?_⟩
      · rw [produced, appended]
      · rw [fetched, returned]

theorem FileLogStore.tallied {store : FileLogStore} {produced fetched : Nat}
    (run : Tallied (fun request store answer after => Storable request ∧
      FileLogStore.handle [] request store = some (answer, after)) .new store produced fetched) :
    store.topics.All (TopicEvery TopicState.config TopicState.partitions StoredPartition.Counted) ∧
      store.producedTotal = produced ∧ store.fetchedTotal = fetched := by
  induction run with
  | opened => exact ⟨.empty, rfl, rfl⟩
  | call _ answered ih =>
      obtain ⟨every, appended, returned⟩ := ih
      obtain ⟨produced, fetched⟩ := handle_counts answered.2
      refine ⟨@every_handle _ Storable id .fresh (fun fits valid counted => counted.append valid fits)
        _ _ _ _ every answered.1 answered.2, ?_, ?_⟩
      · rw [produced, appended]
      · rw [fetched, returned]

/-- The counters of both stores describe what they hold, but for the segments of
the memory store: those are counted right exactly as long as no partition has
pruned a whole segment. -/
theorem stats_describe (mem : MemoryLogStore) (file : FileLogStore) (produced fetched : Nat) :
    (Tallied (fun request store answer after => Validated request ∧
        MemoryLogStore.handle request store = some (answer, after)) .new mem produced fetched →
      mem.stats.records = tally Topic.config Topic.partitions
        (fun _ part => part.retained.length) mem.topics ∧
      mem.stats.producedTotal = produced ∧ mem.stats.fetchedTotal = fetched ∧
      (mem.stats.segments = tally Topic.config Topic.partitions
          (fun retention part => liveSegments retention.segmentMaxRecords part.retained) mem.topics ↔
        ∀ topic ∈ mem.topics.values, ∀ part ∈ topic.partitions,
          topic.config.retention.maxRecords = 0 ∨ part.nextOffset <
            topic.config.retention.maxRecords + topic.config.retention.segmentMaxRecords)) ∧
    (Tallied (fun request store answer after => Storable request ∧
        FileLogStore.handle [] request store = some (answer, after)) .new file produced fetched →
      file.stats.records = tally TopicState.config TopicState.partitions
        (fun _ part => part.retained.length) file.topics ∧
      file.stats.producedTotal = produced ∧ file.stats.fetchedTotal = fetched ∧
      file.stats.segments = tally TopicState.config TopicState.partitions
        (fun retention part => liveSegments retention.segmentMaxRecords part.retained) file.topics) := by
  refine ⟨fun run => ?_, fun run => ?_⟩
  · obtain ⟨every, produced, fetched⟩ := MemoryLogStore.tallied run
    refine ⟨?_, produced, fetched, ?_⟩
    · exact tally_congr every fun _ counted => counted.retained.1.symm
    · rw [eq_comm]
      refine (tally_eq_iff every fun valid counted => counted.live_le valid).trans ?_
      refine forall₂_congr fun topic member => forall₂_congr fun part inside => ?_
      obtain ⟨entry, listed, rfl⟩ := List.mem_map.mp member
      have holds := every entry listed
      exact (holds.partitions part inside).segments_iff holds.valid
  · obtain ⟨every, produced, fetched⟩ := FileLogStore.tallied run
    refine ⟨?_, produced, fetched, ?_⟩
    · exact tally_congr every fun _ counted => counted.retained.1.symm
    · exact tally_congr every fun valid counted => counted.segments valid

end Runs

section Tight

/-! A topic that keeps one record, in segments of one record. -/

def tightTopic : TopicConfig :=
  { eventsTopic with retention := { segmentMaxRecords := 1, maxRecords := 1 } }

theorem MemoryLogStore.tight {batch : List ProduceRecord} {records : List Record}
    (numbers : materialize 0 .epoch batch = some records) : ∃ store,
    Tallied (fun request store answer after => Validated request ∧
      MemoryLogStore.handle request store = some (answer, after)) .new store batch.length 0 ∧
    store.topics.values = [{
      config := tightTopic
      partitions := [(Partition.default.append records 1 1).2] }] := by
  let made : MemoryLogStore := { MemoryLogStore.new with
    topics := OrderedMap.empty.insert tightTopic.name.asStr
      { config := tightTopic, partitions := [.default] } }
  have found : made.topics.find? tightTopic.name.asStr =
      some { config := tightTopic, partitions := [.default] } :=
    (OrderedMap.find?_insert _ _ _ _).trans (if_pos rfl)
  obtain ⟨outcome, store, appended, values⟩ : ∃ outcome store,
      made.handle (.append tightTopic.name 0 batch .epoch) = some (.ok outcome, store) ∧
      store.topics.values = [{
        config := tightTopic
        partitions := [(Partition.default.append records 1 1).2] }] := by
    have first : ([.default] : List Partition)[0]? = some .default := rfl
    have start : Partition.default.nextOffset = 0 := rfl
    simp only [MemoryLogStore.handle, MemoryLogStore.append, found, first, start, numbers]
    exact ⟨_, _, rfl, OrderedMap.values_insert_insert _ _ _⟩
  refine ⟨store, ?_, values⟩
  rw [← Nat.zero_add batch.length]
  have created := @Tallied.call _ (fun request store answer after => Validated request ∧
    MemoryLogStore.handle request store = some (answer, after)) .new _ made _ _
    (.createTopic tightTopic) (.ok true) .opened ⟨rfl, rfl⟩
  exact @Tallied.call _ _ _ _ _ _ _ (.append tightTopic.name 0 batch .epoch) (.ok outcome) created
    ⟨trivial, appended⟩

/-- One record: one segment, and it is there. -/
theorem stats_describe_first : ∃ (store : MemoryLogStore),
    Tallied (fun request store answer after => Validated request ∧
      MemoryLogStore.handle request store = some (answer, after)) .new store 1 0 ∧
    store.stats.producedTotal = 1 ∧
    store.stats.segments = tally Topic.config Topic.partitions
      (fun retention part => liveSegments retention.segmentMaxRecords part.retained) store.topics := by
  obtain ⟨store, run, values⟩ := MemoryLogStore.tight
    (show materialize 0 .epoch [{ key := none, payload := [1] }] = some [⟨0, .epoch, none, [1]⟩] from rfl)
  obtain ⟨_, produced, _, segments⟩ := (stats_describe store .new 1 0).1 run
  refine ⟨store, run, produced, segments.mpr ?_⟩
  rw [values]
  intro topic member part inside
  cases List.mem_singleton.mp member
  cases List.mem_singleton.mp inside
  exact .inr (by decide)

/-- Two records: the first is pruned with its segment, which is still counted. -/
theorem stats_overcount : ∃ (store : MemoryLogStore),
    Tallied (fun request store answer after => Validated request ∧
      MemoryLogStore.handle request store = some (answer, after)) .new store 2 0 ∧
    store.stats.segments = 2 ∧
    tally Topic.config Topic.partitions
      (fun retention part => liveSegments retention.segmentMaxRecords part.retained) store.topics = 1 := by
  let batch : List ProduceRecord := [{ key := none, payload := [1] }, { key := none, payload := [2] }]
  obtain ⟨store, run, values⟩ := MemoryLogStore.tight
    (show materialize 0 .epoch batch = some [⟨0, .epoch, none, [1]⟩, ⟨1, .epoch, none, [2]⟩] from rfl)
  refine ⟨store, run, ?_, ?_⟩
  · rw [MemoryLogStore.stats, values]
    rfl
  · have retained : (Partition.default.append
        [⟨0, .epoch, none, [1]⟩, ⟨1, .epoch, none, [2]⟩] 1 1).2.retained = [⟨1, .epoch, none, [2]⟩] := by
      decide
    rw [tally, values]
    simp [retained, liveSegments, tightTopic]

end Tight

end Infra

end ConnectForge
