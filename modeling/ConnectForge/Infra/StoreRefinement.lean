import ConnectForge.Core.StoreSpec
import ConnectForge.Infra.MemStore
import ConnectForge.Infra.StoreRuns

namespace ConnectForge.Infra

open Data SegmentedLog

/-! Both stores behave like the partition logs they show. -/

namespace Partition

structure Keeps (part : Partition) (log : PartitionLog) : Prop where
  records : part.records = log.records
  start : part.startOffset = log.start
  next : part.nextOffset = log.next

variable {part : Partition} {log : PartitionLog}

theorem Keeps.default : Partition.default.Keeps .empty := ⟨rfl, rfl, rfl⟩

theorem Keeps.fetch (keeps : part.Keeps log) (start max : Nat) :
    part.fetch start max = log.fetch start max := by
  have kept : log.records.filter (fun record => Nat.max start log.start ≤ record.offset) =
      log.records.drop (Nat.max start log.start - log.start) :=
    log.numbered.filter_from (Nat.le_max_right start log.start)
  simp only [Partition.fetch, keeps.records, keeps.start, keeps.next, kept]
  rfl

theorem push_foldl (segmentMax : Nat) (records : List Record) (part : Partition) :
    (records.foldl (push segmentMax) part).records = part.records ++ records ∧
      (records.foldl (push segmentMax) part).startOffset = part.startOffset ∧
      (records.foldl (push segmentMax) part).nextOffset = part.nextOffset + records.length := by
  induction records generalizing part with
  | nil => simp
  | cons record rest ih =>
      obtain ⟨records, start, next⟩ := ih (part.push segmentMax record)
      rw [List.foldl_cons, records, start, next]
      simp [push]
      omega

theorem prune_drop (maxRecords next : Nat) (records : List Record) (start : Nat) (pruned : Bool) :
    ∃ count, (count = 0 ∨ count < records.length) ∧
      prune maxRecords next records start pruned =
        (records.drop count, start + count, pruned || decide (count ≠ 0)) := by
  induction records generalizing start pruned with
  | nil => exact ⟨0, .inl rfl, by simp [prune]⟩
  | cons head rest ih =>
      cases rest with
      | nil => exact ⟨0, .inl rfl, by simp [prune]⟩
      | cons second rest =>
          unfold prune
          split
          · obtain ⟨count, bound, same⟩ := ih (start + 1) true
            refine ⟨count + 1, ?_, ?_⟩
            · simp only [List.length_cons] at bound ⊢
              omega
            · rw [same]
              simp [Nat.add_assoc, Nat.add_comm 1]
          · exact ⟨0, .inl rfl, by simp⟩

theorem Keeps.append (keeps : part.Keeps log) {added : List Record}
    (numbered : Numbered log.next added) (segmentMax maxRecords : Nat) :
    ∃ later, (part.append added segmentMax maxRecords).2.Keeps later ∧
      log.Appends later added (part.append added segmentMax maxRecords).1 := by
  obtain ⟨records, start, next⟩ := push_foldl segmentMax added part
  rw [keeps.records] at records
  rw [keeps.start] at start
  rw [keeps.next] at next
  have length : log.next + added.length = log.start + (log.records ++ added).length := by
    rw [PartitionLog.next, List.length_append, Nat.add_assoc]
  unfold Partition.append
  dsimp only
  split
  · refine ⟨log.appended added numbered 0, ⟨records, start, ?_⟩, 0, .inl rfl, rfl, rfl, rfl⟩
    rw [next, length]
    rfl
  · rw [records, start]
    obtain ⟨count, bound, pruned⟩ := prune_drop maxRecords
      (added.foldl (push segmentMax) part).nextOffset (log.records ++ added) log.start false
    rw [pruned]
    rw [List.length_append] at bound
    refine ⟨log.appended added numbered count, ⟨rfl, rfl, ?_⟩, count, bound, rfl, rfl, ?_⟩
    · dsimp only
      rw [next, PartitionLog.next, PartitionLog.next]
      change _ = log.start + count + ((log.records ++ added).drop count).length
      rw [List.length_drop, List.length_append]
      omega
    · by_cases none : count = 0
      · simp [none]
      · simp [none, PartitionLog.appended]

end Partition

section Topics

/-! Topics of either store next to what they show. -/

variable {Topic Part : Type} {config : Topic → TopicConfig} {partitions : Topic → List Part}
  {keeps : Part → PartitionLog → Prop}

structure TopicShows (config : Topic → TopicConfig) (partitions : Topic → List Part)
    (keeps : Part → PartitionLog → Prop) (topic : Topic) (log : TopicLog) : Prop where
  config : config topic = log.config
  partitions : List.Forall₂ keeps (partitions topic) log.partitions

variable {topics : OrderedMap String Topic} {view : StoreView}
  (shows : topics.Related (TopicShows config partitions keeps) view)

include shows

theorem configs_shown : topics.values.map config = view.values.map TopicLog.config :=
  shows.map_values TopicShows.config

theorem count_shown (topic : TopicName) :
    (topics.find? topic.asStr).map (fun topic => (config topic).partitions) =
      (view.find? topic.asStr).map fun topic => topic.config.partitions := by
  rcases shows.find? topic.asStr with ⟨here, there⟩ | ⟨_, _, here, there, both⟩
  · rw [here, there]
    rfl
  · rw [here, there, Option.map_some, Option.map_some, both.config]

/-- A partition is there on both sides or on neither. -/
theorem partition_shown (topic : TopicName) (partition : Nat) :
    (topics.find? topic.asStr = none ∧ view.find? topic.asStr = none) ∨
    ∃ state log, topics.find? topic.asStr = some state ∧ view.find? topic.asStr = some log ∧
      TopicShows config partitions keeps state log ∧
      (((partitions state)[partition]? = none ∧ log.partitions[partition]? = none) ∨
        ∃ part shown, (partitions state)[partition]? = some part ∧
          log.partitions[partition]? = some shown ∧ keeps part shown) := by
  rcases shows.find? topic.asStr with absent | ⟨state, log, here, there, both⟩
  · exact .inl absent
  · exact .inr ⟨state, log, here, there, both, forall₂_getElem? both.partitions partition⟩

theorem found_shown {topic : TopicName} {partition : Nat} {state : Topic} {part : Part}
    (here : topics.find? topic.asStr = some state) (found : (partitions state)[partition]? = some part) :
    ∃ log, view.find? topic.asStr = some log ∧ TopicShows config partitions keeps state log ∧
      ∃ shown, log.partitions[partition]? = some shown ∧ keeps part shown := by
  rcases partition_shown shows topic partition with ⟨absent, _⟩ |
    ⟨state', log, here', there, both, ⟨missing, _⟩ | ⟨part', shown, found', seen, kept⟩⟩
  · cases here.symm.trans absent
  · cases here.symm.trans here'
    cases found.symm.trans missing
  · cases here.symm.trans here'
    cases found.symm.trans found'
    exact ⟨log, there, both, shown, seen, kept⟩

theorem field_shown {field : Part → Nat} {shownField : PartitionLog → Nat}
    (same : ∀ {part log}, keeps part log → field part = shownField log) (topic : TopicName)
    (partition : Nat) :
    ((topics.find? topic.asStr).bind fun topic => (partitions topic)[partition]?.map field) =
      (view.log? topic partition).map shownField := by
  unfold StoreView.log?
  rcases partition_shown shows topic partition with ⟨here, there⟩ |
    ⟨state, log, here, there, _, ⟨missing, gone⟩ | ⟨part, shown, found, seen, kept⟩⟩
  · rw [here, there]
    rfl
  · rw [here, there, Option.bind_some, Option.bind_some, missing, gone]
    rfl
  · rw [here, there, Option.bind_some, Option.bind_some, found, seen, Option.map_some,
      Option.map_some, same kept]

end Topics

namespace MemoryLogStore

def Displays (store : MemoryLogStore) (view : StoreView) : Prop :=
  store.topics.Related (TopicShows Topic.config Topic.partitions Partition.Keeps) view

def startOffset (store : MemoryLogStore) (topic : TopicName) (partition : Nat) : Option Nat :=
  (store.topics.find? topic.asStr).bind fun topic =>
    topic.partitions[partition]?.map Partition.startOffset

variable {store after : MemoryLogStore} {view : StoreView} {topic : TopicName} {partition : Nat}

theorem createTopic_after (store : MemoryLogStore) (config : TopicConfig) :
    (store.createTopic config).2 = store ∨
    (store.createTopic config).2 = { store with
      topics := store.topics.insert config.name.asStr
        { config, partitions := List.replicate config.partitions .default } } := by
  unfold MemoryLogStore.createTopic
  split
  · exact .inl rfl
  · exact .inr rfl

theorem fetch_after {start max : Nat} {answer : Except PortError FetchResult}
    (called : store.fetch topic partition start max = (answer, after)) :
    after = { store with
      fetchedTotal := store.fetchedTotal +
        answer.toOption.elim 0 fun result => result.records.length } := by
  unfold MemoryLogStore.fetch at called
  split at called
  · cases called
    rfl
  · split at called <;> cases called <;> rfl

theorem Displays.createTopic (displays : store.Displays view) (config : TopicConfig) :
    ∃ view', StoreView.Answers id (.createTopic config) view (store.createTopic config).1 view' ∧
      (store.createTopic config).2.Displays view' := by
  unfold MemoryLogStore.createTopic
  rcases OrderedMap.Related.find? displays config.name.asStr with ⟨here, there⟩ | ⟨_, _, here, _, _⟩
  · rw [here]
    refine ⟨_, .inr ⟨there, rfl, rfl⟩, OrderedMap.Related.insert displays _ ⟨rfl, ?_⟩⟩
    exact List.forall₂_iff_get.mpr ⟨by simp, fun _ _ _ => by simpa using Partition.Keeps.default⟩
  · rw [here]
    exact ⟨view, .inl ⟨by simp, rfl⟩, displays⟩

theorem append_cases {records : List ProduceRecord} {timestamp : DateTime}
    {answer : Except PortError AppendOutcome}
    (called : store.append topic partition records timestamp = some (answer, after)) :
    (∃ reason, answer = .error reason) ∧ after = store ∨
    ∃ state part materialized, store.topics.find? topic.asStr = some state ∧
      state.partitions[partition]? = some part ∧
      materialize part.nextOffset timestamp records = some materialized ∧
      answer = .ok {
        records := materialized
        truncatedTo := (part.append materialized state.config.retention.segmentMaxRecords
          state.config.retention.maxRecords).1 } ∧
      after = { store with
        topics := store.topics.insert topic.asStr { state with
          partitions := state.partitions.set partition (part.append materialized
            state.config.retention.segmentMaxRecords state.config.retention.maxRecords).2 }
        producedTotal := store.producedTotal + records.length } := by
  cases found : store.topics.find? topic.asStr with
  | none =>
      simp only [MemoryLogStore.append, found] at called
      cases called
      exact .inl ⟨⟨_, rfl⟩, rfl⟩
  | some state =>
      cases here : state.partitions[partition]? with
      | none =>
          simp only [MemoryLogStore.append, found, here] at called
          cases called
          exact .inl ⟨⟨_, rfl⟩, rfl⟩
      | some part =>
          simp only [MemoryLogStore.append, found, here] at called
          cases numbers : materialize part.nextOffset timestamp records with
          | none =>
              rw [numbers] at called
              cases called
          | some materialized =>
              rw [numbers] at called
              cases called
              exact .inr ⟨state, part, materialized, rfl, here, numbers, rfl, rfl⟩

theorem Displays.append (displays : store.Displays view) {records : List ProduceRecord}
    {timestamp : DateTime} {answer : Except PortError AppendOutcome}
    (called : store.append topic partition records timestamp = some (answer, after)) :
    ∃ view', StoreView.Answers id (.append topic partition records timestamp) view answer view' ∧
      after.Displays view' := by
  rcases append_cases called with ⟨failed, rfl⟩ |
    ⟨state, part, materialized, here, found, numbers, rfl, rfl⟩
  · exact ⟨view, .inl ⟨failed, rfl⟩, displays⟩
  obtain ⟨log, there, both, shown, seen, kept⟩ := found_shown displays here found
  rw [kept.next] at numbers
  obtain ⟨later, kept', appends⟩ := kept.append (materialize_numbered numbers).2.1
    state.config.retention.segmentMaxRecords state.config.retention.maxRecords
  refine ⟨_, .inr ⟨log, shown, _, later, there, seen, rfl, numbers, ?_, rfl⟩,
    OrderedMap.Related.insert displays _ ⟨both.config, forall₂_set both.partitions _ kept'⟩⟩
  rw [List.map_id]
  exact appends

theorem Displays.fetch (displays : store.Displays view) (topic : TopicName)
    (partition start max : Nat) :
    StoreView.Answers id (.fetch topic partition start max) view
        (store.fetch topic partition start max).1 view ∧
      (store.fetch topic partition start max).2.Displays view := by
  unfold MemoryLogStore.fetch
  rcases partition_shown displays topic partition with ⟨here, _⟩ |
    ⟨state, log, here, there, both, ⟨missing, _⟩ | ⟨part, shown, found, seen, kept⟩⟩
  · rw [here]
    exact ⟨⟨rfl, .inl ⟨_, rfl⟩⟩, displays⟩
  · rw [here]
    dsimp only
    rw [missing]
    exact ⟨⟨rfl, .inl ⟨_, rfl⟩⟩, displays⟩
  · rw [here]
    dsimp only
    rw [found]
    refine ⟨⟨rfl, .inr ⟨shown, ?_, ?_⟩⟩, displays⟩
    · rw [StoreView.log?, there, Option.bind_some, seen]
    · exact congrArg Except.ok (kept.fetch start max)

theorem Displays.step (displays : store.Displays view) {request : StoreCall} {answer : request.Answer}
    (called : store.handle request = some (answer, after)) :
    ∃ view', StoreView.Answers id request view answer view' ∧ after.Displays view' := by
  cases request with
  | createTopic config =>
      have created := displays.createTopic config
      rw [Option.some.inj called] at created
      exact created
  | topics =>
      cases called
      exact ⟨view, ⟨congrArg Except.ok (configs_shown displays), rfl⟩, displays⟩
  | partitionCount topic =>
      cases called
      exact ⟨view, ⟨congrArg Except.ok (count_shown displays topic), rfl⟩, displays⟩
  | append topic partition records timestamp => exact displays.append called
  | fetch topic partition start max =>
      have fetched := displays.fetch topic partition start max
      rw [Option.some.inj called] at fetched
      exact ⟨view, fetched⟩
  | stats =>
      cases called
      exact ⟨view, rfl, displays⟩

end MemoryLogStore

def memoryStore : LogStoreModel where
  Store := MemoryLogStore
  new := .new
  answers request store answer after := store.handle request = some (answer, after)
  readBack := id
  Shows := MemoryLogStore.Displays
  topicCount store := store.topics.entries.length
  partitionCount store topic :=
    (store.topics.find? topic.asStr).map fun topic => topic.config.partitions
  startOffset := MemoryLogStore.startOffset
  readBack_offset _ := rfl
  readBack_submitted _ := rfl
  fresh := .empty
  step displays called := displays.step called
  topics displays := displays.length_eq
  count displays := count_shown displays _
  start displays := field_shown displays Partition.Keeps.start _ _

/-- A partition in step with its directory, with no segment left empty. -/
def StoredKeeps (part : StoredPartition) (log : PartitionLog) : Prop :=
  ∃ segmented : SegmentedLog, Represents part segmented ∧ (∀ chunk ∈ segmented.chunks, chunk ≠ []) ∧
    segmented.view = log

theorem StoredKeeps.fresh : StoredKeeps ⟨.fresh, .empty⟩ .empty :=
  ⟨.empty, ⟨rfl, rfl⟩, by simp [SegmentedLog.empty], rfl⟩

theorem StoredKeeps.start {part : StoredPartition} {log : PartitionLog} (kept : StoredKeeps part log) :
    part.state.startOffset = log.start := by
  obtain ⟨segmented, represents, _, rfl⟩ := kept
  rw [represents.1]
  rfl

theorem pushRecord_filled {segmentMax : Nat} {chunks : List (List Record)}
    (filled : ∀ chunk ∈ chunks, chunk ≠ []) (record : Record) :
    ∀ chunk ∈ pushRecord segmentMax chunks record, chunk ≠ [] := by
  have front : ∀ chunk ∈ (rollChunks segmentMax chunks).dropLast, chunk ∈ chunks := by
    intro chunk member
    unfold rollChunks at member
    split at member
    · simp at member
    · split at member
      · rw [List.dropLast_concat] at member
        exact member
      · exact List.mem_of_mem_dropLast member
  intro chunk member
  rcases List.mem_append.mp member with old | new
  · exact filled chunk (front chunk old)
  · rw [List.mem_singleton.mp new]
    simp

theorem foldl_pushRecord_filled (segmentMax : Nat) (records : List Record)
    {chunks : List (List Record)} (filled : ∀ chunk ∈ chunks, chunk ≠ []) :
    ∀ chunk ∈ records.foldl (pushRecord segmentMax) chunks, chunk ≠ [] := by
  induction records generalizing chunks with
  | nil => exact filled
  | cons record rest ih => exact ih (pushRecord_filled filled record)

theorem flatten_filled {chunks : List (List Record)} (filled : ∀ chunk ∈ chunks, chunk ≠ [])
    (nonempty : chunks ≠ []) : 0 < chunks.flatten.length := by
  obtain ⟨first, rest, rfl⟩ := List.exists_cons_of_ne_nil nonempty
  have positive := List.length_pos_iff.mpr (filled first List.mem_cons_self)
  rw [List.flatten_cons, List.length_append]
  omega

theorem StoredKeeps.append {part : StoredPartition} {log : PartitionLog} (kept : StoredKeeps part log)
    {retention : RetentionPolicy} (valid : retention.validate = .ok ()) {batch : List ProduceRecord}
    (fits : ∀ record ∈ batch, record.Fits) {timestamp : DateTime}
    {result : Except PortError AppendOutcome} {after : PartitionState} {disk : Disk}
    (called : part.state.append retention batch timestamp { dir := part.dir, faults := [] } =
      some (result, after, disk)) :
    ∃ outcome later, result = .ok outcome ∧
      materialize log.next timestamp batch = some outcome.records ∧
      log.Appends later (outcome.records.map Record.truncate) outcome.truncatedTo ∧
      StoredKeeps ⟨after, disk.dir⟩ later := by
  obtain ⟨segmented, ⟨represented, stored⟩, filled, rfl⟩ := kept
  rw [represented] at called
  rw [segmented.view_next]
  cases numbers : materialize segmented.next timestamp batch with
  | none =>
      have panicked : materialize segmented.partition.nextOffset timestamp batch = none := numbers
      simp [PartitionState.append, panicked] at called
  | some materialized =>
      obtain ⟨gone, kept, later, ok, appended⟩ := append_quiet valid fits stored numbers
      rw [ok] at called
      cases called
      have chunksFilled := foldl_pushRecord_filled retention.segmentMaxRecords materialized filled
      rw [appended.chunks] at chunksFilled
      have goneFilled : ∀ chunk ∈ gone, chunk ≠ [] :=
        fun chunk member => chunksFilled chunk (List.mem_append_left _ member)
      have keptFilled : ∀ chunk ∈ kept.chunks, chunk ≠ [] :=
        fun chunk member => chunksFilled chunk (List.mem_append_right _ member)
      have records := congrArg List.flatten appended.chunks
      rw [flatten_foldl_pushRecord, List.flatten_append] at records
      refine ⟨_, kept.view, rfl, rfl, ⟨gone.flatten.length, ?_, ?_, appended.start, ?_⟩,
        kept, ⟨rfl, appended.files⟩, keptFilled, rfl⟩
      · by_cases none : gone = []
        · exact .inl (by simp [none])
        · -- A log without chunks starts at zero, so something is left when something went.
          right
          have went := flatten_filled goneFilled none
          have left : kept.chunks ≠ [] := by
            intro empty
            have zero := kept.unpruned empty
            rw [appended.start] at zero
            omega
          have some := flatten_filled keptFilled left
          have total := congrArg List.length records
          simp only [List.length_append] at total
          change _ < (segmented.chunks.flatten.map Record.truncate).length + _
          simp only [List.length_map]
          omega
      · change _ = (segmented.chunks.flatten.map Record.truncate ++ _).drop _
        rw [← List.map_append, records, ← List.map_drop, List.drop_left]
        rfl
      · by_cases none : gone = []
        · simp [none]
        · have went := flatten_filled goneFilled none
          rw [if_neg none, if_neg (by omega)]
          rfl

/-- What the file store can be asked without damage: configurations that passed
their checks, and records within the 32-bit lengths of the framing. -/
def Storable : StoreCall → Prop
  | .createTopic config => config.retention.validate = .ok ()
  | .append _ _ records _ => ∀ record ∈ records, record.Fits
  | _ => True

namespace FileLogStore

structure Displays (store : FileLogStore) (view : StoreView) : Prop where
  topics : store.topics.Related (TopicShows TopicState.config TopicState.partitions StoredKeeps) view
  valid : store.topics.All fun topic => topic.config.retention.validate = .ok ()

def startOffset (store : FileLogStore) (topic : TopicName) (partition : Nat) : Option Nat :=
  (store.topics.find? topic.asStr).bind fun topic =>
    topic.partitions[partition]?.map fun part => part.state.startOffset

variable {store after : FileLogStore} {view : StoreView} {topic : TopicName} {partition : Nat}

theorem Displays.createTopic (displays : store.Displays view) {config : TopicConfig}
    (valid : config.retention.validate = .ok ()) :
    ∃ view', StoreView.Answers Record.truncate (.createTopic config) view
        (store.createTopic config []).1 view' ∧
      (store.createTopic config []).2.Displays view' := by
  unfold FileLogStore.createTopic
  rcases displays.topics.find? config.name.asStr with ⟨here, there⟩ | ⟨_, _, here, _, _⟩
  · rw [here]
    simp only [performs_quiet]
    refine ⟨_, .inr ⟨there, rfl, rfl⟩, displays.topics.insert _ ⟨rfl, ?_⟩,
      displays.valid.insert _ valid⟩
    exact List.forall₂_iff_get.mpr ⟨by simp, fun _ _ _ => by simpa using StoredKeeps.fresh⟩
  · rw [here]
    exact ⟨view, .inl ⟨by simp, rfl⟩, displays⟩

theorem Displays.append (displays : store.Displays view) {records : List ProduceRecord}
    (fits : ∀ record ∈ records, record.Fits) {timestamp : DateTime}
    {answer : Except PortError AppendOutcome}
    (called : store.append topic partition records timestamp [] = some (answer, after)) :
    ∃ view', StoreView.Answers Record.truncate (.append topic partition records timestamp) view answer
        view' ∧ after.Displays view' := by
  rcases append_cases called with ⟨failed, rfl⟩ | ⟨state, part, next, disk, here, found, appended, rfl⟩
  · exact ⟨view, .inl ⟨failed, rfl⟩, displays⟩
  obtain ⟨log, there, both, shown, seen, kept⟩ := found_shown displays.topics here found
  have valid := displays.valid.find? here
  obtain ⟨outcome, later, rfl, numbers, appends, kept'⟩ := kept.append valid fits appended
  exact ⟨_, .inr ⟨log, shown, _, later, there, seen, rfl, numbers, appends, rfl⟩,
    displays.topics.insert _ ⟨both.config, forall₂_set both.partitions _ kept'⟩,
    displays.valid.insert _ valid⟩

theorem Displays.fetch (displays : store.Displays view) (topic : TopicName)
    (partition start max : Nat) :
    StoreView.Answers Record.truncate (.fetch topic partition start max) view
        (store.fetch topic partition start max).1 view ∧
      (store.fetch topic partition start max).2.Displays view := by
  unfold FileLogStore.fetch
  rcases partition_shown displays.topics topic partition with ⟨here, _⟩ |
    ⟨state, log, here, there, both, ⟨missing, _⟩ | ⟨part, shown, found, seen, kept⟩⟩
  · rw [here]
    exact ⟨⟨rfl, .inl ⟨_, rfl⟩⟩, displays⟩
  · rw [here]
    dsimp only
    rw [missing]
    exact ⟨⟨rfl, .inl ⟨_, rfl⟩⟩, displays⟩
  · obtain ⟨segmented, ⟨represented, stored⟩, _, rfl⟩ := kept
    rw [here]
    dsimp only
    rw [found]
    dsimp only
    rw [represented, PartitionState.fetch_partition segmented stored]
    refine ⟨⟨rfl, .inr ⟨segmented.view, ?_, rfl⟩⟩, displays.topics, displays.valid⟩
    rw [StoreView.log?, there, Option.bind_some, seen]

theorem Displays.step (displays : store.Displays view) {request : StoreCall} {answer : request.Answer}
    (storable : Storable request) (called : store.handle [] request = some (answer, after)) :
    ∃ view', StoreView.Answers Record.truncate request view answer view' ∧ after.Displays view' := by
  cases request with
  | createTopic config =>
      have created := displays.createTopic storable
      rw [Option.some.inj called] at created
      exact created
  | topics =>
      cases called
      exact ⟨view, ⟨congrArg Except.ok (configs_shown displays.topics), rfl⟩, displays⟩
  | partitionCount topic =>
      cases called
      exact ⟨view, ⟨congrArg Except.ok (count_shown displays.topics topic), rfl⟩, displays⟩
  | append topic partition records timestamp => exact displays.append storable called
  | fetch topic partition start max =>
      have fetched := displays.fetch topic partition start max
      rw [Option.some.inj called] at fetched
      exact ⟨view, fetched⟩
  | stats =>
      cases called
      exact ⟨view, rfl, displays⟩

end FileLogStore

def fileStore : LogStoreModel where
  Store := FileLogStore
  new := .new
  answers request store answer after :=
    Storable request ∧ store.handle [] request = some (answer, after)
  readBack := Record.truncate
  Shows := FileLogStore.Displays
  topicCount store := store.topics.entries.length
  partitionCount store topic :=
    (store.topics.find? topic.asStr).map fun topic => topic.config.partitions
  startOffset := FileLogStore.startOffset
  readBack_offset _ := rfl
  readBack_submitted _ := rfl
  fresh := ⟨.empty, fun entry member => by cases member⟩
  step displays called := displays.step called.1 called.2
  topics displays := displays.topics.length_eq
  count displays := count_shown displays.topics _
  start displays := field_shown displays.topics StoredKeeps.start _ _

end ConnectForge.Infra
