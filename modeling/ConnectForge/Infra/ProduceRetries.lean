import ConnectForge.Infra.StoreRuns

namespace ConnectForge.Infra

open Data Interaction SegmentedLog

/-! Produce over the file store.  The engine repeats a failed append as a whole,
so what a failed attempt leaves behind decides whether records are
duplicated. -/

namespace PartitionState

/-- The errors an append can meet without leaving a trace: the segment for its
first record is not created, or none of a first record too large for the buffer
reaches the file. -/
def SparedBy (part : PartitionState) (segmentMax : Nat) (first : Record)
    (faults : List (Option Fault)) : Prop :=
  (part.mustRoll segmentMax = true ∧ ∃ fault rest, faults = some fault :: rest) ∨
  (BufWriter.capacity ≤ (encode first).length ∧ ∃ fault rest, fault.written = 0 ∧
    faults = (if part.mustRoll segmentMax then [none] else []) ++ some fault :: rest)

/-- A frame that bypasses the buffer leaves nothing there when it fails. -/
theorem appendLast_large (log : SegmentedLog) (record : Record) (nonempty : log.chunks ≠ [])
    (large : BufWriter.capacity ≤ (encode record).length) {disk : Disk} {fault : Fault}
    (next : disk.nextFault = some fault) (stored : disk.dir.files = log.files) :
    ∃ later, log.partition.appendLast record disk = (.error (ioErr fault.reason), log.partition, later) ∧
      later.dir.files = withTail log.files ((encode record).take fault.written) := by
  obtain ⟨front, active, later, split, failed, files, _⟩ :=
    appendLast_fault log record nonempty next stored
  refine ⟨later, ?_, files⟩
  rw [failed, if_neg (Nat.not_lt.mpr large)]
  have segments := segments_concat split
  simp only [partition] at segments ⊢
  rw [segments]
  rfl

theorem append_spared {retention : RetentionPolicy} (positive : 0 < retention.segmentMaxRecords)
    (log : SegmentedLog) {batch : List ProduceRecord} {timestamp : DateTime} {first : Record}
    {rest : List Record} (numbers : materialize log.next timestamp batch = some (first :: rest))
    {disk : Disk} (stored : disk.dir.files = log.files)
    (spared : log.partition.SparedBy retention.segmentMaxRecords first disk.faults) :
    ∃ reason log' later,
      log.partition.append retention batch timestamp disk = some (.error reason, partition log', later) ∧
      later.dir.files = log'.files ∧ log'.start = log.start ∧ log'.records = log.records := by
  have numbersHere : materialize log.partition.nextOffset timestamp batch = some (first :: rest) := numbers
  rcases roll_outcome log positive stored with
    ⟨rolled, rollOk, rolledFiles, _, schedule⟩ | ⟨fault, _, _, failed⟩
  · rcases spared with ⟨must, fault, later, hit⟩ | ⟨large, fault, later, unwritten, hit⟩
    · -- The schedule makes the creation of the file fail.
      have next : disk.nextFault = some fault := by rw [Disk.nextFault, hit]; rfl
      simp [roll, must, Segment.create, Disk.openAppend, next] at rollOk
    · have next : rolled.nextFault = some fault := by
        rw [Disk.nextFault, schedule, hit]
        split <;> simp_all
      obtain ⟨after, failed, files⟩ := appendLast_large (log.rollOver positive) first
        (rollChunks_ne_nil retention.segmentMaxRecords log.chunks) large next rolledFiles
      rw [unwritten, List.take_zero, withTail_empty] at files
      refine ⟨ioErr fault.reason, log.rollOver positive, after, ?_, files, rfl, log.rollOver_records positive⟩
      simp only [append, numbersHere, appendRecords, rollOk, failed]
  · refine ⟨ioErr fault.reason, log, disk.afterFault, ?_, stored, rfl, rfl⟩
    simp only [append, numbersHere, appendRecords, failed]

end PartitionState

namespace FileLogStore

/-- What can be read of a partition, now and after a restart. -/
structure Holds (store : FileLogStore) (topic : TopicName) (partition : Nat) (view : PartitionLog) :
    Prop where
  fetched : ∀ start max, (store.fetch topic partition start max).1 = .ok (view.fetch start max)
  recovered : ∀ state part listing, store.topics.find? topic.asStr = some state →
    state.partitions[partition]? = some part → listing.Perm part.dir.names →
    ∃ part' dir', recoverPartition listing part.dir = .ok (part', dir') ∧
      ∀ start max, part'.fetch start max dir' = .ok (view.fetch start max)

/-- A partition that is there, in step with its directory and showing the given
log. -/
def Shows (store : FileLogStore) (topic : TopicName) (partition : Nat) (view : PartitionLog) : Prop :=
  ∃ state part log, store.topics.find? topic.asStr = some state ∧
    state.partitions[partition]? = some part ∧ Represents part log ∧ log.view = view

variable {store after : FileLogStore} {topic : TopicName} {partition : Nat} {view : PartitionLog}

theorem Shows.holds (shows : store.Shows topic partition view) : store.Holds topic partition view := by
  obtain ⟨state, part, log, found, here, ⟨represented, stored⟩, rfl⟩ := shows
  refine ⟨?_, ?_⟩
  · intro start max
    simp only [fetch, found, here, represented, PartitionState.fetch_partition log stored]
  · intro state' part' listing found' here' listed
    rw [found] at found'
    cases found'
    rw [here] at here'
    cases here'
    refine ⟨_, _, recover_torn log rfl (stored.trans (withTail_empty log.files).symm) listed, ?_⟩
    exact PartitionState.fetch_partition log rfl

theorem Shows.update {state : TopicState} {part old : StoredPartition}
    (here : state.partitions[partition]? = some old) {log : SegmentedLog}
    (represents : Represents part log) (produced : Nat) :
    FileLogStore.Shows { store with
      topics := store.topics.insert topic.asStr
        { state with partitions := state.partitions.set partition part }
      producedTotal := produced } topic partition log.view := by
  have bound := (List.getElem?_eq_some_iff.mp here).1
  refine ⟨{ state with partitions := state.partitions.set partition part }, part, log, ?_,
    List.getElem?_set_self bound, represents, rfl⟩
  exact (store.topics.find?_insert _ _ _).trans (if_pos rfl)

/-- What a call may meet: an append of keys that fit the framing, undisturbed or
with an error that leaves no trace; and no topic is named `.` or `..`. -/
def SparedCall (store : FileLogStore) : StoreCall → List (Option Fault) → Prop
  | .createTopic config, _ => Descends config.name.asStr
  | .append topic partition records timestamp, faults =>
      (∀ record ∈ records, ∀ key, record.key = some key → (asBytes key).length < u32Modulus) ∧
      ∀ state part first rest, store.topics.find? topic.asStr = some state →
        state.partitions[partition]? = some part → records = first :: rest →
        (∀ fault ∈ faults, fault = none) ∨
        part.state.SparedBy state.config.retention.segmentMaxRecords
          (.fromProduce first part.state.nextOffset timestamp) faults
  | _, _ => True

/-- The errors after which a partition is still in step with its directory. -/
def Traceless (store : FileLogStore) (topic : TopicName) (partition : Nat)
    (records : List ProduceRecord) (timestamp : DateTime) (faults : List (Option Fault)) : Prop :=
  ∀ state part, store.topics.find? topic.asStr = some state →
    state.partitions[partition]? = some part →
    (∀ fault ∈ faults, fault = none) ∨
    ∃ first rest, records = first :: rest ∧
      part.state.SparedBy state.config.retention.segmentMaxRecords
        (.fromProduce first part.state.nextOffset timestamp) faults

theorem SparedCall.traceless {store : FileLogStore} {topic : TopicName} {partition : Nat}
    {records : List ProduceRecord} (nonempty : records ≠ []) {timestamp : DateTime}
    {faults : List (Option Fault)}
    (spared : store.SparedCall (.append topic partition records timestamp) faults) :
    store.Traceless topic partition records timestamp faults := by
  obtain ⟨first, rest, rfl⟩ := List.exists_cons_of_ne_nil nonempty
  intro state part found here
  exact (spared.2 state part first rest found here rfl).imp_right fun met => ⟨first, rest, rfl, met⟩

end FileLogStore

/-- A partition that has grown by exactly a batch, and may have lost records at
its head. -/
structure Grew (old new : PartitionLog) (batch : List ProduceRecord) (added pruned : List Record) :
    Prop where
  numbered : Numbered old.next added
  submitted : added.map Record.submitted = batch
  records : old.records ++ added = pruned ++ new.records
  start : new.start = old.start + pruned.length

theorem Grew.of_append {log kept : SegmentedLog} {batch : List ProduceRecord} {timestamp : DateTime}
    {materialized : List Record} (numbers : materialize log.next timestamp batch = some materialized)
    {gone : List (List Record)} (records : log.records ++ materialized = gone.flatten ++ kept.records)
    (start : kept.start = log.start + gone.flatten.length) :
    Grew log.view kept.view batch (materialized.map Record.truncate)
      (gone.flatten.map Record.truncate) where
  numbered := by
    have numbered := (materialize_numbered numbers).2.1
    unfold Numbered at numbered ⊢
    rw [List.map_map, List.length_map, log.view_next]
    exact numbered
  submitted := by
    rw [List.map_map]
    exact materialize_submitted numbers
  records := by
    change log.records.map Record.truncate ++ _ = _ ++ kept.records.map Record.truncate
    rw [← List.map_append, records, List.map_append]
  start := by
    rw [List.length_map]
    exact start

namespace FileLogStore

variable {store after : FileLogStore} {topic : TopicName} {partition : Nat} {view : PartitionLog}

/-- An attempt that may only meet errors without a trace either adds the batch
or leaves what can be read alone. -/
theorem Shows.attempt (shows : store.Shows topic partition view) (every : store.Every InStep)
    {records : List ProduceRecord} (fits : ∀ record ∈ records, record.Fits)
    {timestamp : DateTime} {faults : List (Option Fault)}
    (met : store.Traceless topic partition records timestamp faults)
    {result : Except PortError AppendOutcome}
    (called : store.append topic partition records timestamp faults = some (result, after)) :
    after.Every InStep ∧
    match result with
    | .error _ => after.Shows topic partition view
    | .ok outcome => ∃ new pruned, after.Shows topic partition new ∧
        Grew view new records (outcome.records.map Record.truncate) pruned := by
  obtain ⟨state, part, log, found, here, ⟨represented, stored⟩, rfl⟩ := shows
  have topics := every.find? found
  simp only [append, found, here, represented] at called
  cases numbers : materialize log.next timestamp records with
  | none =>
      have panicked : materialize log.partition.nextOffset timestamp records = none := numbers
      simp [PartitionState.append, panicked] at called
  | some materialized =>
      rcases PartitionState.append_outcome (validate_positive topics.valid) log numbers fits
          (show (Disk.mk part.dir faults).dir.files = log.files from stored) with
        ⟨gone, kept, later, ok, result⟩ | ⟨reason, lost, count, gone, kept, torn, later, noisy, failed, _⟩
      · rw [ok] at called
        cases called
        have records := congrArg List.flatten result.chunks
        rw [flatten_foldl_pushRecord, List.flatten_append] at records
        have represents : Represents ⟨kept.partition, later.dir⟩ kept := ⟨rfl, result.files⟩
        exact ⟨every.update found ⟨_, represents⟩ _, kept.view, _, Shows.update here represents _,
          Grew.of_append numbers records result.start⟩
      · rcases met state part found here with quiet | ⟨first, rest, rfl, spared⟩
        · exact absurd quiet noisy
        · obtain ⟨tail, rfl⟩ := materialize_cons numbers
          rw [represented] at spared
          obtain ⟨reason, log', later, stopped, files, start, records⟩ :=
            PartitionState.append_spared (validate_positive topics.valid) log numbers
              (show (Disk.mk part.dir faults).dir.files = log.files from stored) spared
          rw [stopped] at called
          cases called
          have represents : Represents ⟨log'.partition, later.dir⟩ log' := ⟨rfl, files⟩
          have same : log'.view = log.view := by
            simp only [SegmentedLog.view, start, records]
          exact ⟨every.update found ⟨_, represents⟩ _, same ▸ Shows.update here represents _⟩

theorem Every.shows_or (every : store.Every InStep) (topic : TopicName) (partition : Nat) :
    (∃ view, store.Shows topic partition view) ∨
    ∀ records timestamp faults, ∃ reason,
      store.append topic partition records timestamp faults = some (.error reason, store) := by
  cases found : store.topics.find? topic.asStr with
  | none => exact .inr fun records timestamp faults => ⟨.notFound topic.asStr, by simp only [append, found]⟩
  | some state =>
      cases here : state.partitions[partition]? with
      | none =>
          exact .inr fun records timestamp faults =>
            ⟨noPartition topic partition, by simp only [append, found, here]⟩
      | some part =>
          obtain ⟨log, represents⟩ := (every.find? found).partitions part (List.mem_of_getElem? here)
          exact .inl ⟨log.view, state, part, log, found, here, represents, rfl⟩

/-- What the engine sends is within the 32-bit lengths of the framing, but for
the keys. -/
theorem SparedCall.fits {records : List ProduceRecord} {timestamp : DateTime}
    {faults : List (Option Fault)}
    (spared : store.SparedCall (.append topic partition records timestamp) faults)
    (valid : validateAll records = .ok ()) : ∀ record ∈ records, record.Fits := by
  intro record member
  refine ⟨spared.1 record member, ?_⟩
  have bound := validateAll_payload valid record member
  exact Nat.lt_of_le_of_lt bound (by decide)

end FileLogStore

theorem Reached.spared {store : FileLogStore} (reached : Reached FileLogStore.SparedCall store) :
    store.Every InStep := by
  refine reached.inStep ?_
  intro store after topic partition records timestamp faults result every issued spared called
  rcases every.shows_or topic partition with ⟨view, shows⟩ | refused
  · exact (shows.attempt every (spared.fits issued.2) (spared.traceless issued.1) called).1
  · obtain ⟨reason, unchanged⟩ := refused records timestamp faults
    rw [unchanged] at called
    cases called
    exact every

/-- The store and the counter the engine routes keyless batches with. -/
structure EngineWorld where
  store : FileLogStore
  roundRobin : Nat

/-- An engine that runs alone over a store whose calls meet the allowed errors;
the limiter, the clock and the bus answer as they like. -/
def EngineAnswers (allowed : FileLogStore → StoreCall → List (Option Fault) → Prop) :
    (request : EngineCall) → EngineWorld → request.Answer → EngineWorld → Prop
  | .store request, world, answer, after => ∃ faults, allowed world.store request faults ∧
      FileLogStore.handle faults request world.store = some (answer, after.store) ∧
      after.roundRobin = world.roundRobin
  | .nextSlot, world, slot, after => slot = world.roundRobin ∧
      after = { world with roundRobin := (world.roundRobin + 1) % u64Modulus }
  | .tryAcquire _, world, _, after => after = world
  | .now, world, _, after => after = world
  | .publish _, world, _, after => after = world

theorem Reached.ends {allowed : FileLogStore → StoreCall → List (Option Fault) → Prop} {α : Type}
    {program : EngineProgram α} {world after : EngineWorld} {value : α}
    (reached : Reached allowed world.store) (makes : program.Makes EngineCall.Issued)
    (ended : Ends (EngineAnswers allowed) program world value after) : Reached allowed after.store := by
  refine ended.keeps (fun world => Reached allowed world.store) makes ?_ reached
  intro request before answer later issued reached answered
  cases request with
  | store request =>
      obtain ⟨faults, met, handled, _⟩ := answered
      exact reached.call issued met handled
  | nextSlot =>
      rw [answered.2]
      exact reached
  | tryAcquire count =>
      cases answered
      exact reached
  | now =>
      cases answered
      exact reached
  | publish event =>
      cases answered
      exact reached

def EngineWorld.target (world : EngineWorld) (batch : List ProduceRecord) (count : Nat) : Nat :=
  match batch.head?.bind ProduceRecord.key with
  | some key => keyedPartition key count
  | none => world.roundRobin % count

/-- The target partition has grown by exactly the batch, under the offsets that
were reported. -/
def ProducesExactly (before after : EngineWorld) (topic : TopicName) (batch : List ProduceRecord)
    (result : ProduceResult) : Prop :=
  ∃ state old new added pruned, before.store.topics.find? topic.asStr = some state ∧
    before.store.Holds topic (before.target batch state.config.partitions) old ∧
    after.store.Holds topic (before.target batch state.config.partitions) new ∧
    Grew old new batch added pruned ∧ result.baseOffset = old.next ∧
    result.lastOffset + 1 = old.next + batch.length ∧ result.count = batch.length

section Produce

variable {allowed : FileLogStore → StoreCall → List (Option Fault) → Prop} {world after : EngineWorld}
  {topic : TopicName}

theorem partitionCount_ends {found : Option Nat}
    (ended : Ends (EngineAnswers allowed) (partitionCount topic) world (.ok found) after) :
    after = world ∧
      found = (world.store.topics.find? topic.asStr).map fun state => state.config.partitions := by
  have safe : Safe (EngineAnswers allowed) Eq (fun _ _ => True)
      (fun result later => ∀ found, result = .ok found → later = world ∧
        found = (world.store.topics.find? topic.asStr).map fun state => state.config.partitions)
      (partitionCount topic) world := by
    refine safe_storeCall (· = world) ?_ rfl
    rintro _ rfl
    refine Safe.ask ?_
    rintro answer ⟨store, roundRobin⟩ ⟨faults, _, handled, rfl⟩
    cases handled
    refine ⟨?_, nofun⟩
    intro value same
    cases same
    exact ⟨rfl, rfl⟩
  exact safe.ends (fun _ => rfl) ended found rfl

theorem requireTopic_ends {count : Nat}
    (ended : Ends (EngineAnswers allowed) (requireTopic topic) world (.ok count) after) :
    after = world ∧
      ∃ state, world.store.topics.find? topic.asStr = some state ∧ count = state.config.partitions := by
  obtain ⟨answer, later, counts, rest⟩ := ends_bind ended
  cases answer with
  | error reason => cases (ends_done rest).1
  | ok found =>
      obtain ⟨same, rfl⟩ := partitionCount_ends counts
      rw [same] at rest
      cases located : world.store.topics.find? topic.asStr with
      | none =>
          rw [located] at rest
          cases (ends_done rest).1
      | some state =>
          rw [located] at rest
          obtain ⟨counted, rfl⟩ := ends_done rest
          exact ⟨rfl, state, rfl, Except.ok.inj counted⟩

theorem announce_ends {partition : Nat} {outcome : AppendOutcome} {result : Unit}
    (ended : Ends (EngineAnswers allowed) (announce topic partition outcome) world result after) :
    after = world := by
  obtain ⟨_, _, rfl, rest⟩ := ends_ask ended
  cases truncated : outcome.truncatedTo with
  | none =>
      simp only [truncated] at rest
      exact (ends_done rest).2
  | some newStart =>
      simp only [truncated] at rest
      obtain ⟨_, _, rfl, last⟩ := ends_ask rest
      exact (ends_done last).2

theorem route_ends {batch : List ProduceRecord} {count partition : Nat}
    (ended : Ends (EngineAnswers allowed) (route (batch.head?.bind ProduceRecord.key) count) world
      partition after) :
    partition = world.target batch count ∧ after.store = world.store := by
  unfold EngineWorld.target
  cases key : batch.head?.bind ProduceRecord.key with
  | some key' =>
      rw [key] at ended
      obtain ⟨rfl, rfl⟩ := ends_done ended
      exact ⟨rfl, rfl⟩
  | none =>
      rw [key] at ended
      obtain ⟨_, _, ⟨rfl, rfl⟩, rest⟩ := ends_ask ended
      obtain ⟨rfl, rfl⟩ := ends_done rest
      exact ⟨rfl, rfl⟩

/-- What a produce did that returned: a valid batch, routed to a partition of the
topic and stored by one of the attempts. -/
theorem produce_ends {batch : List ProduceRecord} {result : ProduceResult}
    (ended : Ends (EngineAnswers allowed) (produce topic batch) world (.ok result) after) :
    ∃ state timestamp outcome middle, Issued
        (.append topic (world.target batch state.config.partitions) batch timestamp) ∧
      world.store.topics.find? topic.asStr = some state ∧ middle.store = world.store ∧
      result = produceResult outcome ∧
      Ends (EngineAnswers allowed) (storeCall (Program.ask (EngineCall.store
        (.append topic (world.target batch state.config.partitions) batch timestamp)))) middle
        (.ok outcome) after := by
  obtain ⟨_, count, _, partition, _, timestamp, _, outcome, _, acquires, requires, routes, times, stores,
    announces, nonempty, valid, reported⟩ := produce_stages ended
  obtain ⟨_, _, rfl, afterLimiter⟩ := ends_call acquires
  obtain ⟨_, rfl⟩ := ends_done afterLimiter
  obtain ⟨rfl, state, found, rfl⟩ := requireTopic_ends requires
  obtain ⟨rfl, same⟩ := route_ends routes
  obtain ⟨_, _, rfl, afterClock⟩ := ends_call times
  obtain ⟨rfl, rfl⟩ := ends_done afterClock
  cases announce_ends announces
  exact ⟨state, _, outcome, _, ⟨nonempty, valid⟩, found, same, reported, stores⟩

end Produce

/-- However often an append is tried, the attempt that returns adds the batch to
what the partition held before the first one. -/
theorem append_once {world after : EngineWorld} {topic : TopicName} {partition : Nat}
    {batch : List ProduceRecord} {timestamp : DateTime} {outcome : AppendOutcome}
    (every : world.store.Every InStep) (issued : Issued (.append topic partition batch timestamp))
    (ended : Ends (EngineAnswers FileLogStore.SparedCall) (storeCall (Program.ask
      (EngineCall.store (.append topic partition batch timestamp)))) world (.ok outcome) after) :
    ∃ old new pruned, world.store.Shows topic partition old ∧ after.store.Shows topic partition new ∧
      Grew old new batch (outcome.records.map Record.truncate) pruned := by
  rcases every.shows_or topic partition with ⟨old, shows⟩ | refused
  · have safe : Safe (EngineAnswers FileLogStore.SparedCall) Eq (fun _ _ => True)
        (fun result later => ∀ outcome, result = .ok outcome →
          ∃ new pruned, later.store.Shows topic partition new ∧
            Grew old new batch (outcome.records.map Record.truncate) pruned)
        (storeCall (Program.ask (EngineCall.store (.append topic partition batch timestamp)))) world := by
      refine safe_storeCall
        (fun later => later.store.Every InStep ∧ later.store.Shows topic partition old) ?_ ⟨every, shows⟩
      rintro before ⟨every, shows⟩
      refine Safe.ask ?_
      rintro answer later ⟨faults, spared, handled, _⟩
      have attempt := shows.attempt every (spared.fits issued.2) (spared.traceless issued.1) handled
      cases answer with
      | ok outcome =>
          refine ⟨?_, nofun⟩
          intro value same
          cases same
          exact attempt.2
      | error reason => exact ⟨nofun, fun _ _ => attempt⟩
    obtain ⟨new, pruned, later, grew⟩ := safe.ends (fun _ => rfl) ended outcome rfl
    exact ⟨old, new, pruned, shows, later, grew⟩
  · -- Nothing can return from a partition that is not there.
    have safe : Safe (EngineAnswers FileLogStore.SparedCall) Eq (fun _ _ => True)
        (fun result _ => ∀ outcome, result = .ok outcome → False)
        (storeCall (Program.ask (EngineCall.store (.append topic partition batch timestamp)))) world := by
      refine safe_storeCall (fun later => later.store = world.store) ?_ rfl
      intro before same
      refine Safe.ask ?_
      rintro answer later ⟨faults, _, handled, _⟩
      obtain ⟨reason, unchanged⟩ := refused batch timestamp faults
      rw [same] at handled
      obtain ⟨rfl, kept⟩ := Prod.mk.inj (Option.some.inj (unchanged.symm.trans handled))
      exact ⟨nofun, fun _ _ => kept.symm⟩
    exact (safe.ends (fun _ => rfl) ended outcome rfl).elim

theorem produceResult_offsets {outcome : AppendOutcome} {start : Nat}
    (numbered : Numbered start outcome.records) (nonempty : outcome.records ≠ []) :
    (produceResult outcome).baseOffset = start ∧
      (produceResult outcome).lastOffset + 1 = start + outcome.records.length := by
  have first : outcome.records[0]? = some (outcome.records.head nonempty) := by
    rw [← List.head?_eq_getElem?, List.head?_eq_some_head nonempty]
  have base := numbered.getElem? first
  have last := numbered.getLast? (List.getLast?_eq_some_getLast nonempty)
  refine ⟨?_, ?_⟩
  · simp only [produceResult, List.head?_eq_some_head nonempty, Option.map_some, Option.getD_some]
    exact base
  · simp only [produceResult, List.getLast?_eq_some_getLast nonempty, Option.map_some, Option.getD_some]
    exact last

section Retried

variable {allowed : FileLogStore → StoreCall → List (Option Fault) → Prop} {store after : FileLogStore}
  {topic : TopicName} {state : TopicState}

theorem FileLogStore.append_located {partition : Nat} {part : StoredPartition}
    {records : List ProduceRecord} {timestamp : DateTime} {faults : List (Option Fault)}
    {result : Except PortError AppendOutcome} {part' : PartitionState} {disk : Disk}
    (found : store.topics.find? topic.asStr = some state)
    (here : state.partitions[partition]? = some part)
    (appended : part.state.append state.config.retention records timestamp { dir := part.dir, faults } =
      some (result, part', disk)) :
    ∃ after, store.append topic partition records timestamp faults = some (result, after) ∧
      after.topics.find? topic.asStr = some { state with
        partitions := state.partitions.set partition { state := part', dir := disk.dir } } := by
  have stored := (store.topics.find?_insert topic.asStr topic.asStr
    { state with partitions := state.partitions.set partition { state := part', dir := disk.dir } }).trans
    (if_pos rfl)
  cases result with
  | error reason =>
      simp only [append, found, here, appended]
      exact ⟨_, rfl, stored⟩
  | ok outcome =>
      simp only [append, found, here, appended]
      exact ⟨_, rfl, stored⟩

theorem append_attempt {partition slot : Nat} {records : List ProduceRecord} {timestamp : DateTime}
    {faults : List (Option Fault)} {result : Except PortError AppendOutcome}
    (met : allowed store (.append topic partition records timestamp) faults)
    (called : store.append topic partition records timestamp faults = some (result, after)) :
    Ends (EngineAnswers allowed)
      (Program.ask (EngineCall.store (.append topic partition records timestamp))) ⟨store, slot⟩ result
      ⟨after, slot⟩ := Ends.ask ⟨faults, met, called, rfl⟩

theorem announce_published (world : EngineWorld) (partition : Nat) (outcome : AppendOutcome) :
    Ends (EngineAnswers allowed) (announce topic partition outcome) world () world := by
  have published : ∀ event, Ends (EngineAnswers allowed) (Program.ask (EngineCall.publish event)) world
      (.ok ()) world := fun event => Ends.ask rfl
  unfold announce
  refine Ends.bind (published _) ?_
  cases outcome.truncatedTo with
  | none => exact .done
  | some newStart => exact Ends.bind (published _) .done

theorem produce_retried {first : ProduceRecord} {rest : List ProduceRecord}
    (valid : validateAll (first :: rest) = .ok ()) (keyless : first.key = none)
    (found : store.topics.find? topic.asStr = some state) (single : state.config.partitions = 1)
    (counts : allowed store (.partitionCount topic) []) {reason : String} {failed : FileLogStore}
    {outcome : AppendOutcome}
    (fails : Ends (EngineAnswers allowed)
      (Program.ask (EngineCall.store (.append topic 0 (first :: rest) .epoch))) ⟨store, 1⟩
      (.error (.transient reason)) ⟨failed, 1⟩)
    (succeeds : Ends (EngineAnswers allowed)
      (Program.ask (EngineCall.store (.append topic 0 (first :: rest) .epoch))) ⟨failed, 1⟩
      (.ok outcome) ⟨after, 1⟩) :
    Ends (EngineAnswers allowed) (produce topic (first :: rest)) ⟨store, 0⟩
      (.ok (produceResult outcome)) ⟨after, 1⟩ := by
  have admitted : Ends (EngineAnswers allowed)
      (Program.ask (EngineCall.tryAcquire (first :: rest).length)) ⟨store, 0⟩ true ⟨store, 0⟩ :=
    Ends.ask rfl
  have counted : Ends (EngineAnswers allowed) (requireTopic topic) ⟨store, 0⟩ (.ok 1) ⟨store, 0⟩ := by
    have answered : FileLogStore.handle [] (.partitionCount topic) store = some (.ok (some 1), store) := by
      simp only [FileLogStore.handle, found, Option.map_some, single]
    exact Ends.bind (storeCall_first (Ends.ask ⟨[], counts, answered, rfl⟩)) .done
  have routed : Ends (EngineAnswers allowed) (route ((first :: rest).head?.bind ProduceRecord.key) 1)
      ⟨store, 0⟩ 0 ⟨store, 1⟩ := by
    rw [List.head?_cons, Option.bind_some, keyless]
    exact Ends.bind (Ends.ask ⟨rfl, rfl⟩) .done
  have timed : Ends (EngineAnswers allowed) (Program.ask EngineCall.now) ⟨store, 1⟩ DateTime.epoch
      ⟨store, 1⟩ := Ends.ask rfl
  have stored := storeCall_second fails succeeds
  unfold produce
  refine Ends.bind admitted ?_
  simp only [valid, Bool.not_true, Bool.false_eq_true, ↓reduceIte]
  exact Ends.bind counted (Ends.bind routed (Ends.bind timed (Ends.bind stored
    (Ends.bind (announce_published ⟨after, 1⟩ 0 outcome) .done))))

/-- A topic with one partition and one record in each segment. -/
def eventsTopic : TopicConfig where
  name := ⟨"events", by decide⟩
  partitions := 1
  retention := { segmentMaxRecords := 1, maxRecords := 0 }

theorem Reached.events (allowed : FileLogStore → StoreCall → List (Option Fault) → Prop)
    (quiet : allowed .new (.createTopic eventsTopic) []) :
    ∃ store, Reached allowed store ∧ store.topics.find? eventsTopic.name.asStr =
      some { config := eventsTopic, partitions := [{ state := .fresh, dir := .empty }] } := by
  refine ⟨_, @Reached.call allowed .new _ (.createTopic eventsTopic) [] _ .opened rfl quiet rfl, ?_⟩
  exact (OrderedMap.find?_insert _ _ _ _).trans (if_pos rfl)

theorem produce_events (allowed : FileLogStore → StoreCall → List (Option Fault) → Prop)
    (first : ProduceRecord) (rest : List ProduceRecord)
    (valid : validateAll (first :: rest) = .ok ()) (keyless : first.key = none)
    (found : store.topics.find? eventsTopic.name.asStr =
      some { config := eventsTopic, partitions := [{ state := .fresh, dir := .empty }] })
    (counts : allowed store (.partitionCount eventsTopic.name) []) {faults : List (Option Fault)}
    {reason : String} {outcome : AppendOutcome} {part part' : PartitionState} {disk disk' : Disk}
    (stops : PartitionState.fresh.append eventsTopic.retention (first :: rest) .epoch
      { dir := .empty, faults } = some (.error (.transient reason), part, disk))
    (appends : part.append eventsTopic.retention (first :: rest) .epoch { dir := disk.dir, faults := [] } =
      some (.ok outcome, part', disk'))
    (met : allowed store (.append eventsTopic.name 0 (first :: rest) .epoch) faults)
    (undisturbed : ∀ failed, allowed failed (.append eventsTopic.name 0 (first :: rest) .epoch) []) :
    ∃ after, Ends (EngineAnswers allowed) (produce eventsTopic.name (first :: rest)) ⟨store, 0⟩
      (.ok (produceResult outcome)) after := by
  obtain ⟨failed, called, foundAgain⟩ := FileLogStore.append_located found
    (show [StoredPartition.mk .fresh .empty][0]? = some _ from rfl) stops
  obtain ⟨after, calledAgain, _⟩ := FileLogStore.append_located foundAgain
    (show ([StoredPartition.mk .fresh .empty].set 0 ⟨part, disk.dir⟩)[0]? = some ⟨part, disk.dir⟩ from rfl)
    appends
  exact ⟨_, produce_retried valid keyless found rfl counts (append_attempt met called)
    (append_attempt (undisturbed failed) calledAgain)⟩

end Retried

end ConnectForge.Infra
