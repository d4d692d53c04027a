import ConnectForge.Infra.FileStore
import ConnectForge.Infra.LogRepresentation
import ConnectForge.Infra.MemStore

namespace ConnectForge.Infra

open Data SegmentedLog

/-! The memory store next to the file store, without retention and I/O errors. -/

def mirrorOf (start : Nat) (chunks : List (List Record)) : Partition where
  records := chunks.flatten
  startOffset := start
  nextOffset := start + chunks.flatten.length
  segments := chunks.length
  recordsInActiveSegment := (chunks.getLast?.getD []).length

theorem mirrorOf_pushRecord (segmentMax start : Nat) (chunks : List (List Record)) (record : Record) :
    mirrorOf start (pushRecord segmentMax chunks record) =
      (mirrorOf start chunks).push segmentMax record := by
  rcases List.eq_nil_or_concat' chunks with rfl | ⟨front, active, rfl⟩
  · simp [pushRecord, rollChunks, extendLast, mirrorOf, Partition.push]
  · by_cases full : segmentMax ≤ active.length
    · have rolled : pushRecord segmentMax (front ++ [active]) record = front ++ [active] ++ [[record]] := by
        simp only [pushRecord, rollChunks, List.getLast?_append, List.getLast?_singleton,
          Option.some_or, full, ↓reduceIte, extendLast_concat, List.nil_append]
      rw [rolled]
      simp [full, mirrorOf, Partition.push, Nat.add_assoc]
    · simp [pushRecord, rollChunks, full, mirrorOf, Partition.push, Nat.add_assoc]

theorem mirrorOf_foldl (segmentMax start : Nat) (chunks : List (List Record))
    (records : List Record) :
    mirrorOf start (records.foldl (pushRecord segmentMax) chunks) =
      records.foldl (Partition.push segmentMax) (mirrorOf start chunks) := by
  induction records generalizing chunks with
  | nil => rfl
  | cons record rest ih => rw [List.foldl_cons, ih, mirrorOf_pushRecord, List.foldl_cons]

/-- A memory partition and a file partition that hold the same log. -/
def Mirrors (mem : Partition) (file : StoredPartition) : Prop :=
  ∃ log : SegmentedLog, file.state = log.partition ∧ file.dir.files = log.files ∧
    mem = mirrorOf log.start log.chunks

theorem Mirrors.fresh : Mirrors .default { state := .fresh, dir := .empty } :=
  ⟨.empty, rfl, rfl, rfl⟩

theorem Mirrors.fetch {mem : Partition} {file : StoredPartition} (mirrors : Mirrors mem file)
    (start max : Nat) :
    file.state.fetch start max file.dir = .ok (mem.fetch start max).truncate := by
  obtain ⟨log, state, stored, rfl⟩ := mirrors
  have kept : (mirrorOf log.start log.chunks).records.filter
      (fun record => Nat.max start log.start ≤ record.offset) =
        log.records.drop (Nat.max start log.start - log.start) :=
    log.numbered.filter_from (Nat.le_max_right start log.start)
  have slice : log.view.slice start max =
      ((log.records.drop (Nat.max start log.start - log.start)).take max).map Record.truncate := by
    rw [PartitionLog.slice, List.map_take, List.map_drop]
    rfl
  have startOffset : (mirrorOf log.start log.chunks).startOffset = log.start := rfl
  rw [state, PartitionState.fetch_partition log stored]
  simp only [PartitionLog.fetch, Partition.fetch, startOffset, kept, FetchResult.truncate, slice,
    nextAfter_truncate, log.view_next]
  rfl

theorem Mirrors.total {mem : Partition} {file : StoredPartition} (mirrors : Mirrors mem file) :
    mem.nextOffset - mem.startOffset = file.state.totalRecords := by
  obtain ⟨log, state, _, rfl⟩ := mirrors
  rw [state]
  rfl

theorem Mirrors.segments {mem : Partition} {file : StoredPartition} (mirrors : Mirrors mem file) :
    mem.segments = file.state.segments.length := by
  obtain ⟨log, state, _, rfl⟩ := mirrors
  rw [state]
  simp [SegmentedLog.partition, SegmentedLog.places, mirrorOf]

theorem Mirrors.append {mem : Partition} {file : StoredPartition} (mirrors : Mirrors mem file)
    {retention : RetentionPolicy} (positive : 0 < retention.segmentMaxRecords)
    (unbounded : retention.maxRecords = 0) {batch : List ProduceRecord}
    (fits : ∀ record ∈ batch, record.Fits) (timestamp : DateTime) :
    match materialize mem.nextOffset timestamp batch with
    | none => file.state.append retention batch timestamp { dir := file.dir, faults := [] } = none
    | some materialized => ∃ after disk,
        file.state.append retention batch timestamp { dir := file.dir, faults := [] } =
          some (.ok { records := materialized, truncatedTo := none }, after, disk) ∧
        (mem.append materialized retention.segmentMaxRecords retention.maxRecords).1 = none ∧
        Mirrors (mem.append materialized retention.segmentMaxRecords retention.maxRecords).2
          { state := after, dir := disk.dir } := by
  obtain ⟨log, state, stored, rfl⟩ := mirrors
  rw [state]
  have next : (mirrorOf log.start log.chunks).nextOffset = log.next := rfl
  rw [next]
  cases numbers : materialize log.next timestamp batch with
  | none =>
      have panicked : materialize log.partition.nextOffset timestamp batch = none := numbers
      simp only [PartitionState.append, panicked]
  | some materialized =>
      have valid : retention.validate = .ok () := by
        simp only [RetentionPolicy.validate]
        exact if_neg (by omega)
      obtain ⟨gone, kept, later, ok, result⟩ := append_quiet valid fits stored numbers
      obtain rfl := result.unbounded unbounded
      refine ⟨kept.partition, later, ok, ?_, kept, rfl, result.files, ?_⟩
      · rw [Partition.append, unbounded]
        rfl
      · have chunks := result.chunks
        have start := result.start
        rw [List.nil_append] at chunks
        rw [List.flatten_nil, List.length_nil, Nat.add_zero] at start
        rw [Partition.append, if_pos unbounded, ← chunks, mirrorOf_foldl, start]

structure TopicMirrors (mem : Topic) (file : TopicState) : Prop where
  config : mem.config = file.config
  positive : 0 < file.config.retention.segmentMaxRecords
  unbounded : file.config.retention.maxRecords = 0
  partitions : List.Forall₂ Mirrors mem.partitions file.partitions

structure StoreMirrors (mem : MemoryLogStore) (file : FileLogStore) : Prop where
  topics : OrderedMap.Related TopicMirrors mem.topics file.topics
  produced : mem.producedTotal = file.producedTotal
  fetched : mem.fetchedTotal = file.fetchedTotal

/-- The calls both stores answer alike: topics without retention, under names
that are directories of their own, and records the framing can represent. -/
def Admitted : StoreCall → Prop
  | .createTopic config => config.retention.maxRecords = 0 ∧ 1 ≤ config.retention.segmentMaxRecords ∧
      config.name.asStr ≠ "." ∧ config.name.asStr ≠ ".."
  | .append _ _ records _ => records ≠ [] ∧ ∀ record ∈ records, record.Fits
  | _ => True

/-- The answer of the file store to a call, given the answer of the memory
store: the same, with fetched timestamps cut to milliseconds. -/
def asFileAnswer : (request : StoreCall) → request.Answer → request.Answer
  | .createTopic _, answer => answer
  | .topics, answer => answer
  | .partitionCount _, answer => answer
  | .append _ _ _ _, answer => answer
  | .fetch _ _ _ _, answer => answer.map FetchResult.truncate
  | .stats, answer => answer

inductive SameStep (request : StoreCall) : Option (request.Answer × MemoryLogStore) →
    Option (request.Answer × FileLogStore) → Prop where
  | overflow : SameStep request none none
  | answered {answer mem file} (mirrors : StoreMirrors mem file) :
      SameStep request (some (answer, mem)) (some (asFileAnswer request answer, file))

namespace StoreMirrors

variable {mem : MemoryLogStore} {file : FileLogStore}

theorem fresh : StoreMirrors .new .new := ⟨.empty, rfl, rfl⟩

theorem createTopic (mirrors : StoreMirrors mem file) {config : TopicConfig}
    (admitted : Admitted (.createTopic config)) :
    SameStep (.createTopic config) (some (mem.createTopic config)) (some (file.createTopic config [])) := by
  obtain ⟨unbounded, positive, _, _⟩ := admitted
  rcases mirrors.topics.find? config.name.asStr with ⟨memNone, fileNone⟩ |
    ⟨first, second, memFound, fileFound, _⟩
  · rw [MemoryLogStore.createTopic, memNone, FileLogStore.createTopic, fileNone]
    simp only [FileLogStore.performs_quiet]
    refine .answered ⟨mirrors.topics.insert _ ⟨rfl, positive, unbounded, ?_⟩, mirrors.produced,
      mirrors.fetched⟩
    exact List.forall₂_iff_get.mpr ⟨by simp, fun _ _ _ => by simpa using Mirrors.fresh⟩
  · rw [MemoryLogStore.createTopic, memFound, FileLogStore.createTopic, fileFound]
    exact .answered mirrors

theorem append (mirrors : StoreMirrors mem file) (topic : TopicName) (partition : Nat)
    {records : List ProduceRecord} (fits : ∀ record ∈ records, record.Fits) (timestamp : DateTime) :
    SameStep (.append topic partition records timestamp) (mem.append topic partition records timestamp)
      (file.append topic partition records timestamp []) := by
  rcases mirrors.topics.find? topic.asStr with ⟨memNone, fileNone⟩ |
    ⟨first, second, memFound, fileFound, topics⟩
  · rw [MemoryLogStore.append, memNone, FileLogStore.append, fileNone]
    exact .answered mirrors
  rcases forall₂_getElem? topics.partitions partition with ⟨memNone, fileNone⟩ |
    ⟨memPart, filePart, memHere, fileHere, parts⟩
  · simp only [MemoryLogStore.append, memFound, memNone, FileLogStore.append, fileFound, fileNone]
    exact .answered mirrors
  have stepped := parts.append topics.positive topics.unbounded fits timestamp
  simp only [MemoryLogStore.append, memFound, memHere, FileLogStore.append, fileFound, fileHere,
    topics.config]
  cases numbers : materialize memPart.nextOffset timestamp records with
  | none =>
      rw [numbers] at stepped
      dsimp only at stepped ⊢
      rw [stepped]
      exact .overflow
  | some materialized =>
      rw [numbers] at stepped
      obtain ⟨after, disk, ok, untruncated, mirrored⟩ := stepped
      dsimp only
      rw [ok]
      dsimp only
      rw [untruncated]
      refine .answered (StoreMirrors.mk (mirrors.topics.insert topic.asStr ⟨rfl, topics.positive,
        topics.unbounded, forall₂_set topics.partitions partition mirrored⟩) ?_ mirrors.fetched)
      change mem.producedTotal + records.length = file.producedTotal + materialized.length
      rw [mirrors.produced, (materialize_numbered numbers).1]

theorem fetch (mirrors : StoreMirrors mem file) (topic : TopicName) (partition start max : Nat) :
    SameStep (.fetch topic partition start max) (some (mem.fetch topic partition start max))
      (some (file.fetch topic partition start max)) := by
  rcases mirrors.topics.find? topic.asStr with ⟨memNone, fileNone⟩ |
    ⟨first, second, memFound, fileFound, topics⟩
  · rw [MemoryLogStore.fetch, memNone, FileLogStore.fetch, fileNone]
    exact .answered mirrors
  rcases forall₂_getElem? topics.partitions partition with ⟨memNone, fileNone⟩ |
    ⟨memPart, filePart, memHere, fileHere, parts⟩
  · simp only [MemoryLogStore.fetch, memFound, memNone, FileLogStore.fetch, fileFound, fileNone]
    exact .answered mirrors
  simp only [MemoryLogStore.fetch, memFound, memHere, FileLogStore.fetch, fileFound, fileHere,
    parts.fetch]
  refine .answered ⟨mirrors.topics, mirrors.produced, ?_⟩
  simp [FetchResult.truncate, mirrors.fetched]

theorem stats (mirrors : StoreMirrors mem file) : mem.stats = file.stats := by
  have summed : ∀ {count : Partition → Nat} {count' : StoredPartition → Nat},
      (∀ {mem file}, Mirrors mem file → count mem = count' file) →
      mem.topics.values.map (fun topic => (topic.partitions.map count).sum) =
        file.topics.values.map (fun topic => (topic.partitions.map count').sum) := by
    intro count count' agree
    apply mirrors.topics.map_values
    intro first second topics
    rw [forall₂_map_eq topics.partitions agree]
  have partitions : mem.topics.values.map (fun topic => topic.partitions.length) =
      file.topics.values.map (fun topic => topic.partitions.length) :=
    mirrors.topics.map_values fun topics => topics.partitions.length_eq
  rw [MemoryLogStore.stats, FileLogStore.stats, partitions, summed Mirrors.total,
    summed Mirrors.segments, mirrors.produced, mirrors.fetched, mirrors.topics.length_eq]

/-- Both stores answer an admitted call alike and still mirror each other. -/
theorem step (mirrors : StoreMirrors mem file) {request : StoreCall} (admitted : Admitted request) :
    SameStep request (mem.handle request) (file.handle [] request) := by
  cases request with
  | createTopic config => exact mirrors.createTopic admitted
  | topics =>
      have configs : mem.topics.values.map Topic.config = file.topics.values.map TopicState.config :=
        mirrors.topics.map_values TopicMirrors.config
      rw [MemoryLogStore.handle, FileLogStore.handle, ← configs]
      exact .answered mirrors
  | partitionCount topic =>
      have counts : (mem.topics.find? topic.asStr).map (fun topic => topic.config.partitions) =
          (file.topics.find? topic.asStr).map fun topic => topic.config.partitions := by
        rcases mirrors.topics.find? topic.asStr with ⟨memNone, fileNone⟩ |
          ⟨first, second, memFound, fileFound, topics⟩
        · rw [memNone, fileNone]
          rfl
        · rw [memFound, fileFound, Option.map_some, Option.map_some, topics.config]
      rw [MemoryLogStore.handle, FileLogStore.handle, ← counts]
      exact .answered mirrors
  | append topic partition records timestamp => exact mirrors.append topic partition admitted.2 timestamp
  | fetch topic partition start max => exact mirrors.fetch topic partition start max
  | stats =>
      rw [MemoryLogStore.handle, FileLogStore.handle, ← mirrors.stats]
      exact .answered mirrors

end StoreMirrors

/-- A fresh memory store and a fresh file store after the same admitted calls. -/
inductive Lockstep : MemoryLogStore → FileLogStore → Prop where
  | fresh : Lockstep .new .new
  | call {mem file mem' file'} {request : StoreCall} {answer answer' : request.Answer}
      (earlier : Lockstep mem file) (admitted : Admitted request)
      (memCalled : mem.handle request = some (answer, mem'))
      (fileCalled : file.handle [] request = some (answer', file')) : Lockstep mem' file'

theorem Lockstep.mirrors {mem : MemoryLogStore} {file : FileLogStore} (run : Lockstep mem file) :
    StoreMirrors mem file := by
  induction run with
  | fresh => exact .fresh
  | call _ admitted memCalled fileCalled ih =>
      have same := ih.step admitted
      rw [memCalled, fileCalled] at same
      cases same with
      | answered mirrors => exact mirrors

theorem Lockstep.follow {mem mem' : MemoryLogStore} {file : FileLogStore} (run : Lockstep mem file)
    {request : StoreCall} (admitted : Admitted request) {answer : request.Answer}
    (called : mem.handle request = some (answer, mem')) : ∃ file', Lockstep mem' file' := by
  have same := run.mirrors.step admitted
  rw [called] at same
  generalize fileCalled : file.handle [] request = fileResult at same
  cases same with
  | answered mirrors => exact ⟨_, run.call admitted called fileCalled⟩

/-- The memory store answers every call as the file store does, except that
fetched timestamps keep what is below a millisecond; and neither answers when an
offset would overflow. -/
theorem stores_agree {mem : MemoryLogStore} {file : FileLogStore} (run : Lockstep mem file)
    {request : StoreCall} (admitted : Admitted request) :
    (mem.handle request = none ∧ file.handle [] request = none) ∨
    ∃ answer mem' file', mem.handle request = some (answer, mem') ∧
      file.handle [] request = some (asFileAnswer request answer, file') := by
  have same := run.mirrors.step admitted
  generalize mem.handle request = memResult at same ⊢
  generalize file.handle [] request = fileResult at same ⊢
  cases same with
  | overflow => exact .inl ⟨rfl, rfl⟩
  | answered mirrors => exact .inr ⟨_, _, _, rfl, rfl⟩

/-- One record, appended a nanosecond after the epoch and fetched from both
stores. -/
theorem stores_agree_fetched :
    ∃ (topic : TopicName) (mem mem' : MemoryLogStore) (file file' : FileLogStore), Lockstep mem file ∧
      mem.handle (.fetch topic 0 0 10) =
        some (.ok ⟨[⟨0, ⟨1, by decide, by decide⟩, none, [1]⟩], 1, 1⟩, mem') ∧
      file.handle [] (.fetch topic 0 0 10) = some (.ok ⟨[⟨0, .epoch, none, [1]⟩], 1, 1⟩, file') := by
  let topic : TopicName := ⟨"events", by decide⟩
  let config : TopicConfig := ⟨topic, 1, ⟨1, 0⟩⟩
  let time : DateTime := ⟨1, by decide, by decide⟩
  let record : ProduceRecord := ⟨none, [1]⟩
  let empty : MemoryLogStore := ⟨OrderedMap.empty.insert "events" ⟨config, [.default]⟩, 0, 0⟩
  let part : Partition := ⟨[.fromProduce record 0 time], 0, 1, 1, 1⟩
  let filled : MemoryLogStore := ⟨empty.topics.insert "events" ⟨config, [part]⟩, 1, 0⟩
  obtain ⟨file, created⟩ := Lockstep.fresh.follow
    (show Admitted (.createTopic config) from ⟨rfl, by decide, by decide, by decide⟩)
    (show MemoryLogStore.new.handle (.createTopic config) = some (.ok true, empty) from rfl)
  have fits : ∀ other ∈ [record], other.Fits := by
    intro other member
    rw [List.mem_singleton.mp member]
    exact .keyless (by decide)
  obtain ⟨file, appended⟩ := created.follow
    (show Admitted (.append topic 0 [record] time) from ⟨by simp, fits⟩)
    (show empty.handle (.append topic 0 [record] time) = some (.ok ⟨part.records, none⟩, filled) from rfl)
  have found : filled.topics.find? "events" = some ⟨config, [part]⟩ := by
    rw [OrderedMap.find?_insert, if_pos rfl]
  have fetched : filled.fetch topic 0 0 10 = (.ok ⟨part.records, 1, 1⟩, { filled with fetchedTotal := 1 }) := by
    simp only [MemoryLogStore.fetch, topic, found]
    rfl
  rcases @stores_agree _ _ appended (.fetch topic 0 0 10) trivial with
    ⟨stuck, _⟩ | ⟨answer, mem', file', memCalled, fileCalled⟩
  · cases stuck
  · have value : (filled.fetch topic 0 0 10).1 = answer := congrArg Prod.fst (Option.some.inj memCalled)
    rw [fetched] at value
    subst value
    exact ⟨topic, filled, mem', file, file', appended, memCalled, fileCalled⟩

end ConnectForge.Infra
