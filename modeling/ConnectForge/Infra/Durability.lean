import ConnectForge.Infra.StoreRefinement

namespace ConnectForge.Infra

open Data SegmentedLog

/-! The file store over restarts, and over crashes in the middle of an append.  A
crash may leave a last segment without records behind, which the next append
fills. -/

/-- A partition in step with its directory. -/
def StoredShows (part : StoredPartition) (log : PartitionLog) : Prop :=
  ∃ segmented : SegmentedLog, Represents part segmented ∧ segmented.view = log

/-- A partition from whose directory a log can be recovered. -/
def StoredLeaves (part : StoredPartition) (log : PartitionLog) : Prop :=
  ∃ (segmented : SegmentedLog) (torn : Bytes), decode torn 0 = none ∧
    part.dir.files = withTail segmented.files torn ∧ segmented.view = log

section Partitions

variable {part : StoredPartition} {log : PartitionLog}

theorem StoredShows.fresh : StoredShows ⟨.fresh, .empty⟩ .empty := ⟨.empty, ⟨rfl, rfl⟩, rfl⟩

theorem StoredShows.start (shown : StoredShows part log) : part.state.startOffset = log.start := by
  obtain ⟨segmented, represents, rfl⟩ := shown
  rw [represents.1]
  rfl

theorem StoredShows.next (shown : StoredShows part log) : part.state.nextOffset = log.next := by
  obtain ⟨segmented, represents, rfl⟩ := shown
  rw [represents.1, segmented.view_next]
  rfl

theorem StoredShows.leaves (shown : StoredShows part log) : StoredLeaves part log := by
  obtain ⟨segmented, ⟨_, stored⟩, view⟩ := shown
  exact ⟨segmented, [], rfl, stored.trans (withTail_empty segmented.files).symm, view⟩

theorem StoredLeaves.reopened {new : StoredPartition} (left : StoredLeaves part log)
    (reopened : Reopened part new) : StoredShows new log := by
  obtain ⟨segmented, torn, ended, stored, view⟩ := left
  obtain ⟨listing, listed, recovered⟩ := reopened
  rw [recover_torn segmented ended stored listed] at recovered
  cases new
  cases recovered
  exact ⟨segmented, ⟨rfl, rfl⟩, view⟩

theorem StoredShows.restarted {new : StoredPartition} (shown : StoredShows part log)
    (restarted : Restarted part new) : StoredShows new log := by
  have inStep : InStep part := shown.imp fun _ both => both.1
  exact shown.leaves.reopened (inStep.restarted restarted)

/-- Pushing a record fills the one chunk that may have been empty. -/
theorem pushRecord_fills {segmentMax : Nat} (positive : 0 < segmentMax) {chunks : List (List Record)}
    (filled : ∀ chunk ∈ chunks.dropLast, chunk ≠ []) (record : Record) :
    ∀ chunk ∈ pushRecord segmentMax chunks record, chunk ≠ [] := by
  rcases List.eq_nil_or_concat' chunks with rfl | ⟨front, active, rfl⟩
  · simp [pushRecord, rollChunks, extendLast]
  rw [List.dropLast_concat] at filled
  simp only [pushRecord, rollChunks, List.getLast?_append, List.getLast?_singleton, Option.some_or]
  intro chunk member
  split at member
  · rename_i full
    rw [extendLast_concat, List.mem_append, List.mem_append] at member
    rcases member with (earlier | last) | new
    · exact filled chunk earlier
    · rw [List.mem_singleton.mp last]
      exact List.length_pos_iff.mp (Nat.lt_of_lt_of_le positive full)
    · rw [List.mem_singleton.mp new]
      simp
  · rw [extendLast_concat, List.mem_append] at member
    rcases member with earlier | new
    · exact filled chunk earlier
    · rw [List.mem_singleton.mp new]
      simp

theorem StoredShows.append (shown : StoredShows part log) {retention : RetentionPolicy}
    (valid : retention.validate = .ok ()) {batch : List ProduceRecord} (nonempty : batch ≠ [])
    (fits : ∀ record ∈ batch, record.Fits) {timestamp : DateTime}
    {result : Except PortError AppendOutcome} {after : PartitionState} {disk : Disk}
    (called : part.state.append retention batch timestamp { dir := part.dir, faults := [] } =
      some (result, after, disk)) :
    ∃ outcome later, result = .ok outcome ∧
      materialize log.next timestamp batch = some outcome.records ∧
      log.Appends later (outcome.records.map Record.truncate) outcome.truncatedTo ∧
      StoredShows ⟨after, disk.dir⟩ later := by
  obtain ⟨segmented, ⟨represented, stored⟩, rfl⟩ := shown
  rw [represented] at called
  rw [segmented.view_next]
  cases numbers : materialize segmented.next timestamp batch with
  | none =>
      have panicked : materialize segmented.partition.nextOffset timestamp batch = none := numbers
      simp [PartitionState.append, panicked] at called
  | some materialized =>
      obtain ⟨gone, kept, later, ok, appended⟩ := append_quiet valid fits stored numbers
      rw [ok] at called
      cases called
      have chunksFilled : ∀ chunk ∈ gone ++ kept.chunks, chunk ≠ [] := by
        rw [← appended.chunks]
        cases materialized with
        | nil =>
            have length := (materialize_numbered numbers).1
            exact absurd (List.eq_nil_of_length_eq_zero length.symm) nonempty
        | cons first rest =>
            exact foldl_pushRecord_filled _ rest
              (pushRecord_fills (validate_positive valid) segmented.filled first)
      have goneFilled : ∀ chunk ∈ gone, chunk ≠ [] :=
        fun chunk member => chunksFilled chunk (List.mem_append_left _ member)
      have keptFilled : ∀ chunk ∈ kept.chunks, chunk ≠ [] :=
        fun chunk member => chunksFilled chunk (List.mem_append_right _ member)
      have records := congrArg List.flatten appended.chunks
      rw [flatten_foldl_pushRecord, List.flatten_append] at records
      have total := congrArg List.length records
      simp only [List.length_append] at total
      refine ⟨_, kept.view, rfl, rfl, ⟨gone.flatten.length, ?_, ?_, appended.start, ?_⟩,
        kept, ⟨rfl, appended.files⟩, rfl⟩
      · by_cases none : gone = []
        · exact .inl (by simp [none])
        · right
          have went := flatten_filled goneFilled none
          have left : kept.chunks ≠ [] := by
            intro empty
            have zero := kept.unpruned empty
            rw [appended.start] at zero
            omega
          have some := flatten_filled keptFilled left
          change _ < (segmented.chunks.flatten.map Record.truncate).length + _
          simp only [List.length_map]
          omega
      · change _ = (segmented.chunks.flatten.map Record.truncate ++ _).drop _
        rw [← List.map_append, records, ← List.map_drop, List.drop_left]
        rfl
      · by_cases none : gone = []
        · simp [none]
        · have went := flatten_filled goneFilled none
          rw [if_neg none, if_neg (by omega)]
          rfl

/-- Wherever an append stops, it leaves a log that has gained some first records of
the batch. -/
theorem StoredShows.stopped (shown : StoredShows part log) {retention : RetentionPolicy}
    (valid : retention.validate = .ok ()) {batch : List ProduceRecord}
    (fits : ∀ record ∈ batch, record.Fits) {timestamp : DateTime} {faults : List (Option Fault)}
    {result : Except PortError AppendOutcome} {lost : PartitionState} {disk : Disk}
    (stopped : part.state.append retention batch timestamp { dir := part.dir, faults } =
      some (result, lost, disk)) :
    ∃ numbered count later, materialize log.next timestamp batch = some numbered ∧
      count ≤ numbered.length ∧ log.Gains later ((numbered.take count).map Record.truncate) ∧
      StoredLeaves ⟨lost, disk.dir⟩ later := by
  obtain ⟨segmented, ⟨represented, stored⟩, rfl⟩ := shown
  rw [represented] at stopped
  rw [segmented.view_next]
  cases numbers : materialize segmented.next timestamp batch with
  | none =>
      have panicked : materialize segmented.partition.nextOffset timestamp batch = none := numbers
      simp [PartitionState.append, panicked] at stopped
  | some numbered =>
      obtain ⟨count, gone, kept, torn, cut⟩ := append_stopped valid fits stored numbers stopped
      refine ⟨numbered, min count numbered.length, kept.view, rfl, Nat.min_le_right _ _,
        ⟨gone.flatten.length, ?_, ?_, cut.start⟩, kept, torn, cut.ended, cut.files, rfl⟩
      · have total := congrArg List.length cut.records
        simp only [List.length_append, List.length_take] at total
        change _ ≤ (segmented.records.map Record.truncate).length + _
        simp only [List.length_map, List.length_take]
        omega
      · have same : numbered.take (min count numbered.length) = numbered.take count := by
          rw [← List.take_take, List.take_length]
        change kept.records.map Record.truncate = (segmented.records.map Record.truncate ++ _).drop _
        rw [same, ← List.map_append, cut.records, ← List.map_drop, List.drop_left]

end Partitions

namespace FileLogStore

/-- The store next to what it shows, for what its partitions keep of their
logs. -/
structure Reflects (keeps : StoredPartition → PartitionLog → Prop) (store : FileLogStore) (view : StoreView) :
    Prop where
  topics : store.topics.Related (TopicShows TopicState.config TopicState.partitions keeps) view
  valid : store.topics.All fun topic => topic.config.retention.validate = .ok ()

variable {keeps weaker : StoredPartition → PartitionLog → Prop} {store after : FileLogStore}
  {view : StoreView} {topic : TopicName} {partition : Nat}

theorem Reflects.new : FileLogStore.new.Reflects keeps .empty := ⟨.empty, .empty⟩

theorem Reflects.imp (reflects : store.Reflects keeps view) (implies : ∀ {part log}, keeps part log → weaker part log) :
    store.Reflects weaker view :=
  ⟨reflects.topics.imp fun shows => ⟨shows.config, shows.partitions.imp fun _ _ => implies⟩, reflects.valid⟩

theorem Reflects.createTopic (reflects : store.Reflects StoredShows view) {config : TopicConfig}
    (valid : config.retention.validate = .ok ()) :
    ∃ view', StoreView.Answers Record.truncate (.createTopic config) view
        (store.createTopic config []).1 view' ∧
      (store.createTopic config []).2.Reflects StoredShows view' := by
  unfold FileLogStore.createTopic
  rcases reflects.topics.find? config.name.asStr with ⟨here, there⟩ | ⟨_, _, here, _, _⟩
  · rw [here]
    simp only [performs_quiet]
    refine ⟨_, .inr ⟨there, rfl, rfl⟩, reflects.topics.insert _ ⟨rfl, ?_⟩, reflects.valid.insert _ valid⟩
    exact List.forall₂_iff_get.mpr ⟨by simp, fun _ _ _ => by simpa using StoredShows.fresh⟩
  · rw [here]
    exact ⟨view, .inl ⟨by simp, rfl⟩, reflects⟩

/-- A store of which one partition changed. -/
theorem Reflects.update (reflects : store.Reflects keeps view) {state : TopicState} {log : TopicLog}
    (here : store.topics.find? topic.asStr = some state)
    (both : TopicShows TopicState.config TopicState.partitions keeps state log) {part : StoredPartition}
    {later : PartitionLog} (kept : keeps part later) (produced : Nat) :
    FileLogStore.Reflects keeps { store with
        topics := store.topics.insert topic.asStr
          { state with partitions := state.partitions.set partition part }
        producedTotal := produced }
      (view.insert topic.asStr { log with partitions := log.partitions.set partition later }) :=
  have valid := reflects.valid.find? here
  ⟨reflects.topics.insert _ ⟨both.config, forall₂_set both.partitions _ kept⟩, reflects.valid.insert _ valid⟩

theorem Reflects.append (reflects : store.Reflects StoredShows view) {records : List ProduceRecord}
    (nonempty : records ≠ []) (fits : ∀ record ∈ records, record.Fits) {timestamp : DateTime}
    {answer : Except PortError AppendOutcome}
    (called : store.append topic partition records timestamp [] = some (answer, after)) :
    ∃ view', StoreView.Answers Record.truncate (.append topic partition records timestamp) view answer
        view' ∧ after.Reflects StoredShows view' := by
  rcases append_cases called with ⟨failed, rfl⟩ | ⟨state, part, next, disk, here, found, appended, rfl⟩
  · exact ⟨view, .inl ⟨failed, rfl⟩, reflects⟩
  obtain ⟨log, there, both, shown, seen, kept⟩ := found_shown reflects.topics here found
  obtain ⟨outcome, later, rfl, numbers, appends, kept'⟩ :=
    kept.append (reflects.valid.find? here) nonempty fits appended
  exact ⟨_, .inr ⟨log, shown, _, later, there, seen, rfl, numbers, appends, rfl⟩,
    reflects.update here both kept' _⟩

theorem Reflects.fetch (reflects : store.Reflects StoredShows view) (topic : TopicName)
    (partition start max : Nat) :
    StoreView.Answers Record.truncate (.fetch topic partition start max) view
        (store.fetch topic partition start max).1 view ∧
      (store.fetch topic partition start max).2.Reflects StoredShows view := by
  unfold FileLogStore.fetch
  rcases partition_shown reflects.topics topic partition with ⟨here, _⟩ |
    ⟨state, log, here, there, both, ⟨missing, _⟩ | ⟨part, shown, found, seen, kept⟩⟩
  · rw [here]
    exact ⟨⟨rfl, .inl ⟨_, rfl⟩⟩, reflects⟩
  · rw [here]
    dsimp only
    rw [missing]
    exact ⟨⟨rfl, .inl ⟨_, rfl⟩⟩, reflects⟩
  · obtain ⟨segmented, ⟨represented, stored⟩, rfl⟩ := kept
    rw [here]
    dsimp only
    rw [found]
    dsimp only
    rw [represented, PartitionState.fetch_partition segmented stored]
    refine ⟨⟨rfl, .inr ⟨segmented.view, ?_, rfl⟩⟩, reflects.topics, reflects.valid⟩
    rw [StoreView.log?, there, Option.bind_some, seen]

/-- What the engine asks of the file store: no batch it appends is empty. -/
def Asked : StoreCall → Prop
  | .append topic partition records timestamp =>
      records ≠ [] ∧ Storable (.append topic partition records timestamp)
  | request => Storable request

theorem Reflects.step (reflects : store.Reflects StoredShows view) {request : StoreCall} {answer : request.Answer}
    (asked : Asked request) (called : store.handle [] request = some (answer, after)) :
    ∃ view', StoreView.Answers Record.truncate request view answer view' ∧ after.Reflects StoredShows view' := by
  cases request with
  | createTopic config =>
      have created := reflects.createTopic asked
      rw [Option.some.inj called] at created
      exact created
  | topics =>
      cases called
      exact ⟨view, ⟨congrArg Except.ok (configs_shown reflects.topics), rfl⟩, reflects⟩
  | partitionCount topic =>
      cases called
      exact ⟨view, ⟨congrArg Except.ok (count_shown reflects.topics topic), rfl⟩, reflects⟩
  | append topic partition records timestamp => exact reflects.append asked.1 asked.2 called
  | fetch topic partition start max =>
      have fetched := reflects.fetch topic partition start max
      rw [Option.some.inj called] at fetched
      exact ⟨view, fetched⟩
  | stats =>
      cases called
      exact ⟨view, rfl, reflects⟩

/-- A store comes back with what it left. -/
theorem Reflects.comesBack {again : StoredPartition → StoredPartition → Prop}
    (renews : ∀ part new log, keeps part log → again part new → StoredShows new log)
    (reflects : store.Reflects keeps view) (back : store.ComesBack again after) :
    after.Reflects StoredShows view := by
  refine ⟨reflects.topics.along back.topics ?_, back.topics.all reflects.valid ?_⟩
  · intro old log new shows same
    refine ⟨by rw [same.config, shows.config], ?_⟩
    exact forall₂_along shows.partitions same.partitions (renews _ _ _)
  · intro old new same valid
    rw [same.config]
    exact valid

theorem Reflects.restarts (reflects : store.Reflects StoredShows view) (restarts : store.Restarts after) :
    after.Reflects StoredShows view :=
  Reflects.comesBack (fun _ _ _ shown restarted => shown.restarted restarted) reflects restarts

theorem Reflects.recovers (reflects : store.Reflects StoredLeaves view) (recovers : store.Recovers after) :
    after.Reflects StoredShows view :=
  Reflects.comesBack (fun _ _ _ left reopened => left.reopened reopened) reflects recovers

end FileLogStore

theorem truncate_submitted (record : Record) : record.truncate.submitted = record.submitted := rfl

/-- The file store as the engine uses it. -/
def durableStore : LogStoreModel where
  Store := FileLogStore
  new := .new
  answers request store answer after :=
    FileLogStore.Asked request ∧ store.handle [] request = some (answer, after)
  readBack := Record.truncate
  Shows := FileLogStore.Reflects StoredShows
  topicCount store := store.topics.entries.length
  partitionCount store topic :=
    (store.topics.find? topic.asStr).map fun topic => topic.config.partitions
  startOffset := FileLogStore.startOffset
  readBack_offset := Record.truncate_offset
  readBack_submitted := truncate_submitted
  fresh := .new
  step reflects called := reflects.step called.1 called.2
  topics reflects := reflects.topics.length_eq
  count reflects := count_shown reflects.topics _
  start reflects := field_shown reflects.topics StoredShows.start _ _

end ConnectForge.Infra
