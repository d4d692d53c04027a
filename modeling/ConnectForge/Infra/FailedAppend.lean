import ConnectForge.Infra.ProduceRetries

namespace ConnectForge.Infra

open Data SegmentedLog

/-! What an append that returns an error has changed. -/

namespace PartitionState

/-! An append only moves forward until retention begins. -/

theorem roll_grows (part : PartitionState) (segmentMax : Nat) (disk : Disk) :
    (part.roll segmentMax disk).2.1.nextOffset = part.nextOffset ∧
      part.segments.length ≤ (part.roll segmentMax disk).2.1.segments.length := by
  unfold roll
  split
  · cases Segment.create part.nextOffset disk with
    | mk created disk =>
        cases created with
        | error reason => exact ⟨rfl, Nat.le_refl _⟩
        | ok segment => exact ⟨rfl, by simp⟩
  · exact ⟨rfl, Nat.le_refl _⟩

theorem appendLast_grows (part : PartitionState) (record : Record) (disk : Disk) :
    (part.appendLast record disk).2.1.segments.length = part.segments.length ∧
      part.nextOffset ≤ (part.appendLast record disk).2.1.nextOffset ∧
      ((part.appendLast record disk).1 = .ok () →
        (part.appendLast record disk).2.1.nextOffset = part.nextOffset + 1) := by
  unfold appendLast
  cases last : part.segments.getLast? with
  | none => exact ⟨rfl, Nat.le_refl _, nofun⟩
  | some segment =>
      have nonempty : part.segments ≠ [] := by
        intro empty
        simp [empty] at last
      have positive := List.length_pos_iff.mpr nonempty
      dsimp only
      cases segment.append record disk with
      | mk result rest =>
          obtain ⟨segment, disk⟩ := rest
          cases result with
          | error reason =>
              refine ⟨?_, Nat.le_refl _, nofun⟩
              simp only [List.length_append, List.length_dropLast, List.length_singleton]
              omega
          | ok =>
              refine ⟨?_, Nat.le_succ _, fun _ => rfl⟩
              simp only [List.length_append, List.length_dropLast, List.length_singleton]
              omega

theorem appendRecords_grows (segmentMax : Nat) (records : List Record) (part : PartitionState)
    (disk : Disk) :
    part.nextOffset ≤ (appendRecords segmentMax records part disk).2.1.nextOffset ∧
      part.segments.length ≤ (appendRecords segmentMax records part disk).2.1.segments.length ∧
      ((appendRecords segmentMax records part disk).1 = .ok () →
        (appendRecords segmentMax records part disk).2.1.nextOffset =
          part.nextOffset + records.length) := by
  induction records generalizing part disk with
  | nil => exact ⟨Nat.le_refl _, Nat.le_refl _, fun _ => rfl⟩
  | cons record rest ih =>
      have rolls := roll_grows part segmentMax disk
      unfold appendRecords
      generalize part.roll segmentMax disk = rolled at rolls ⊢
      obtain ⟨result, state, later⟩ := rolled
      cases result with
      | error reason => exact ⟨Nat.le_of_eq rolls.1.symm, rolls.2, fun finished => by cases finished⟩
      | ok =>
          have appends := appendLast_grows state record later
          dsimp only at rolls ⊢
          generalize state.appendLast record later = appended at appends ⊢
          obtain ⟨result, grown, last⟩ := appended
          cases result with
          | error reason =>
              dsimp only at appends ⊢
              exact ⟨by omega, by omega, fun finished => by cases finished⟩
          | ok =>
              have grew := appends.2.2 rfl
              dsimp only at appends grew
              obtain ⟨offsets, segments, total⟩ := ih grown last
              dsimp only
              refine ⟨by omega, by omega, ?_⟩
              intro finished
              rw [total finished, List.length_cons]
              omega

theorem prune_next (maxRecords next : Nat) (segments : List Segment) (start : Nat) (pruned : Bool)
    (disk : Disk) :
    (prune maxRecords next segments start pruned disk).2.1.nextOffset = next ∧
      ∀ reason, (prune maxRecords next segments start pruned disk).1 = .error reason →
        (prune maxRecords next segments start pruned disk).2.1.segments.length < segments.length := by
  induction segments generalizing start pruned disk with
  | nil => exact ⟨rfl, fun _ failed => by cases failed⟩
  | cons head rest ih =>
      cases rest with
      | nil => exact ⟨rfl, fun _ failed => by cases failed⟩
      | cons second rest =>
          unfold prune
          split
          · cases head.remove disk with
            | mk removed later =>
                cases removed with
                | error reason => exact ⟨rfl, fun _ _ => Nat.lt_succ_self _⟩
                | ok =>
                    obtain ⟨same, shorter⟩ := ih second.base true later
                    exact ⟨same, fun reason failed => Nat.lt_succ_of_lt (shorter reason failed)⟩
          · exact ⟨rfl, fun _ failed => by cases failed⟩

theorem applyRetention_next (part : PartitionState) (maxRecords : Nat) (disk : Disk) :
    (part.applyRetention maxRecords disk).2.1.nextOffset = part.nextOffset ∧
      ∀ reason, (part.applyRetention maxRecords disk).1 = .error reason →
        (part.applyRetention maxRecords disk).2.1.segments.length < part.segments.length := by
  unfold applyRetention
  split
  · exact ⟨rfl, nofun⟩
  · have pruned := prune_next maxRecords part.nextOffset part.segments part.startOffset false disk
    generalize prune maxRecords part.nextOffset part.segments part.startOffset false disk = outcome
      at pruned ⊢
    obtain ⟨result, state, later⟩ := outcome
    cases result with
    | error reason => exact ⟨pruned.1, fun _ _ => pruned.2 reason rfl⟩
    | ok value => exact ⟨pruned.1, nofun⟩

/-- The errors an append survives unchanged: its very first file operation fails,
and if that is a write, then of a frame that bypasses the buffer and is not all in
the file. -/
def FailsFirst (part : PartitionState) (segmentMax : Nat) (batch : List ProduceRecord)
    (timestamp : DateTime) (faults : List (Option Fault)) : Prop :=
  ∃ first rest fault later, batch = first :: rest ∧ faults = some fault :: later ∧
    (part.mustRoll segmentMax = false →
      fault.Cuts (encode (.fromProduce first part.nextOffset timestamp)))

/-- What a failed append leaves when it is not such an error. -/
def Moved (log : SegmentedLog) (after : PartitionState) (dir : Directory) : Prop :=
  log.next < after.nextOffset ∨ after.segments.length ≠ log.partition.segments.length ∨
  ∃ (left : Directory) (longer : SegmentedLog), (StoredPartition.mk after dir).Leaves left ∧
    left.files = longer.files ∧ longer.next = log.next + 1

theorem nextFault_cons {disk : Disk} {fault : Fault} (next : disk.nextFault = some fault) :
    ∃ later, disk.faults = some fault :: later := by
  unfold Disk.nextFault at next
  cases schedule : disk.faults with
  | nil => simp [schedule] at next
  | cons first later =>
      rw [schedule] at next
      exact ⟨later, by rw [show first = some fault from next]⟩

/-- Past its first write an append has moved the end of the log, whatever
happens next. -/
theorem moved_on {segmentMax maxRecords : Nat} {log : SegmentedLog} {part after : PartitionState}
    {rest : List Record} {disk later : Disk} (grew : log.next < part.nextOffset)
    {reason : PortError}
    (stopped : appendRecords segmentMax rest part disk = (.error reason, after, later) ∨
      ∃ state disk', appendRecords segmentMax rest part disk = (.ok (), state, disk') ∧
        state.applyRetention maxRecords disk' = (.error reason, after, later)) :
    Moved log after later.dir := by
  have grows := appendRecords_grows segmentMax rest part disk
  left
  rcases stopped with failed | ⟨state, disk', ok, failed⟩
  · rw [failed] at grows
    exact Nat.lt_of_lt_of_le grew grows.1
  · have same := (applyRetention_next state maxRecords disk').1
    rw [failed] at same
    rw [ok] at grows
    rw [same]
    exact Nat.lt_of_lt_of_le grew grows.1

theorem append_stops {part after : PartitionState} {retention : RetentionPolicy}
    {batch : List ProduceRecord} {timestamp : DateTime} {disk later : Disk} {reason : PortError}
    {materialized : List Record} (numbers : materialize part.nextOffset timestamp batch = some materialized)
    (failed : part.append retention batch timestamp disk = some (.error reason, after, later)) :
    appendRecords retention.segmentMaxRecords materialized part disk = (.error reason, after, later) ∨
      ∃ state disk',
        appendRecords retention.segmentMaxRecords materialized part disk = (.ok (), state, disk') ∧
        state.applyRetention retention.maxRecords disk' = (.error reason, after, later) := by
  simp only [append, numbers] at failed
  generalize appendRecords retention.segmentMaxRecords materialized part disk = outcome at failed ⊢
  obtain ⟨result, state, disk'⟩ := outcome
  cases result with
  | error reason =>
      cases failed
      exact .inl rfl
  | ok =>
      dsimp only at failed
      refine .inr ⟨state, disk', rfl, ?_⟩
      generalize state.applyRetention retention.maxRecords disk' = outcome at failed ⊢
      obtain ⟨result, state, later⟩ := outcome
      cases result with
      | error reason =>
          cases failed
          rfl
      | ok value => cases failed

/-- A frame that is buffered gets out when the writers are dropped, if no error stops
it then. -/
theorem appendLast_small (log : SegmentedLog) (record : Record) (nonempty : log.chunks ≠ [])
    (small : (encode record).length < BufWriter.capacity) {disk : Disk} {fault : Fault}
    (next : disk.nextFault = some fault) (stored : disk.dir.files = log.files)
    {result : Except PortError Unit} {after : PartitionState} {later : Disk}
    (appended : log.partition.appendLast record disk = (result, after, later)) :
    ∃ left, (StoredPartition.mk after later.dir).Leaves left ∧
      left.files = withTail log.files (encode record) := by
  obtain ⟨front, active, disk', split, failed, files, _⟩ :=
    appendLast_fault log record nonempty next stored
  rw [failed, if_pos small] at appended
  cases appended
  by_cases whole : (encode record).length ≤ fault.written
  · refine ⟨_, .killed, ?_⟩
    rw [files, List.take_of_length_le whole]
  · refine ⟨_, .dropped [], ?_⟩
    have rest : (encode record).drop fault.written ≠ [] := by
      rw [ne_eq, List.drop_eq_nil_iff]
      exact whole
    have flushed := BufWriter.flush_buffered rest (logPath (log.start + front.flatten.length))
      { dir := later.dir, faults := [] }
    rw [Disk.write_ok rfl, BufWriter.flush] at flushed
    rw [files_concat split, withTail_concat] at files ⊢
    rw [PartitionState.drop, List.foldl_append, drop_flushed flushed_placed, List.foldl_cons, List.foldl_nil,
      BufWriter.drop, flushed, Disk.appended]
    rw [Directory.modify_last _ files (earlier_names split), List.append_assoc, List.take_append_drop]

theorem append_torn (log : SegmentedLog) {record : Record} (nonempty : log.chunks ≠ [])
    (offset : record.offset = log.next) (fits : record.Fits) (room : log.next + 1 < u64Modulus)
    {disk : Disk} {fault : Fault} (next : disk.nextFault = some fault)
    (stored : disk.dir.files = log.files) {result : Except PortError Unit} {after : PartitionState}
    {later : Disk} (appended : log.partition.appendLast record disk = (result, after, later)) :
    (fault.Cuts (encode record) →
      after = log.partition ∧ ∃ torn, decode torn 0 = none ∧ later.dir.files = withTail log.files torn) ∧
    (¬ fault.Cuts (encode record) → Moved log after later.dir) := by
  have longer : ∀ {left : Directory}, (StoredPartition.mk after later.dir).Leaves left →
      left.files = withTail log.files (encode record) → Moved log after later.dir := by
    intro left leaves files
    refine .inr (.inr ⟨left, log.extend record nonempty offset fits room, leaves, ?_, ?_⟩)
    · exact files.trans (files_extend log nonempty offset fits room)
    · exact extend_next log nonempty offset fits room
  by_cases large : BufWriter.capacity ≤ (encode record).length
  · obtain ⟨disk', failed, files⟩ := appendLast_large log record nonempty large next stored
    rw [failed] at appended
    cases appended
    refine ⟨fun short => ⟨rfl, _, take_ended fits short.2, files⟩, fun whole => longer .killed ?_⟩
    rw [files, List.take_of_length_le (Nat.not_lt.mp fun short => whole ⟨large, short⟩)]
  · refine ⟨fun short => absurd short.1 large, fun _ => ?_⟩
    obtain ⟨left, leaves, files⟩ :=
      appendLast_small log record nonempty (Nat.not_le.mp large) next stored appended
    exact longer leaves files

theorem length_segments (log : SegmentedLog) : log.partition.segments.length = log.chunks.length := by
  rw [partition, List.length_map, places, length_placed]

theorem failsFirst_cons {part : PartitionState} {segmentMax : Nat} {first : ProduceRecord}
    {rest : List ProduceRecord} {timestamp : DateTime} {disk : Disk} :
    part.FailsFirst segmentMax (first :: rest) timestamp disk.faults ↔
      ∃ fault, disk.nextFault = some fault ∧ (part.mustRoll segmentMax = false →
        fault.Cuts (encode (.fromProduce first part.nextOffset timestamp))) := by
  constructor
  · rintro ⟨_, _, fault, others, shape, hit, short⟩
    cases shape
    refine ⟨fault, ?_, short⟩
    rw [Disk.nextFault, hit]
    rfl
  · rintro ⟨fault, next, short⟩
    obtain ⟨others, hit⟩ := nextFault_cons next
    exact ⟨first, rest, fault, others, rfl, hit, short⟩

/-- A segment is opened only where the schedule lets it be. -/
theorem roll_clear {part after : PartitionState} {segmentMax : Nat} {disk later : Disk}
    (rolled : part.roll segmentMax disk = (.ok (), after, later))
    (must : part.mustRoll segmentMax = true) : disk.nextFault = none := by
  cases next : disk.nextFault with
  | none => rfl
  | some fault => simp [roll, must, Segment.create, Disk.openAppend, next] at rolled

/-- Where no segment is opened, the write meets the first entry of the schedule. -/
theorem failsFirst_rolled {part after : PartitionState} {segmentMax : Nat} {first : ProduceRecord}
    {rest : List ProduceRecord} {timestamp : DateTime} {disk rolled : Disk}
    (rollOk : part.roll segmentMax disk = (.ok (), after, rolled))
    (schedule : rolled.faults = if part.mustRoll segmentMax then disk.faults.tail else disk.faults) :
    part.FailsFirst segmentMax (first :: rest) timestamp disk.faults ↔
      part.mustRoll segmentMax = false ∧ ∃ fault, rolled.nextFault = some fault ∧
        fault.Cuts (encode (.fromProduce first part.nextOffset timestamp)) := by
  rw [failsFirst_cons]
  cases must : part.mustRoll segmentMax with
  | true =>
      constructor
      · rintro ⟨fault, hit, _⟩
        rw [roll_clear rollOk must] at hit
        cases hit
      · rintro ⟨never, _⟩
        cases never
  | false =>
      have kept : rolled.nextFault = disk.nextFault := by
        rw [Disk.nextFault, Disk.nextFault, schedule, must]
        rfl
      simp only [kept, true_imp_iff, true_and]

theorem stops_there {reason failure : PortError} {part after : PartitionState} {disk later : Disk}
    {Pruned : PartitionState → Disk → Prop}
    (stops : ((.error failure, part, disk) : Except PortError Unit × PartitionState × Disk) =
        (.error reason, after, later) ∨
      ∃ state disk', ((.error failure, part, disk) : Except PortError Unit × PartitionState × Disk) =
        (.ok (), state, disk') ∧ Pruned state disk') :
    part = after ∧ disk = later := by
  rcases stops with stopped | ⟨_, _, ok, _⟩
  · cases stopped
    exact ⟨rfl, rfl⟩
  · cases ok

theorem appendRecords_failed {retention : RetentionPolicy} (positive : 0 < retention.segmentMaxRecords)
    (log : SegmentedLog) {first : ProduceRecord} {rest : List ProduceRecord} {timestamp : DateTime}
    {tail : List Record} (fits : (Record.fromProduce first log.next timestamp).Fits)
    (room : log.next + 1 < u64Modulus) {disk rolled later : Disk} {reason : PortError}
    {after : PartitionState}
    (rollOk : log.partition.roll retention.segmentMaxRecords disk =
      (.ok (), (log.rollOver positive).partition, rolled))
    (rolledFiles : rolled.dir.files = (log.rollOver positive).files)
    (schedule : rolled.faults =
      if log.partition.mustRoll retention.segmentMaxRecords then disk.faults.tail else disk.faults)
    (stops : appendRecords retention.segmentMaxRecords
          (.fromProduce first log.next timestamp :: tail) log.partition disk =
        (.error reason, after, later) ∨
      ∃ state disk', appendRecords retention.segmentMaxRecords
          (.fromProduce first log.next timestamp :: tail) log.partition disk =
        (.ok (), state, disk') ∧
        state.applyRetention retention.maxRecords disk' = (.error reason, after, later)) :
    (log.partition.FailsFirst retention.segmentMaxRecords (first :: rest) timestamp disk.faults ∧
      after = log.partition ∧
      ∃ torn, decode torn 0 = none ∧ later.dir.files = withTail log.files torn) ∨
    (¬ log.partition.FailsFirst retention.segmentMaxRecords (first :: rest) timestamp disk.faults ∧
      Moved log after later.dir) := by
  simp only [appendRecords, rollOk] at stops
  rw [failsFirst_rolled rollOk schedule]
  have nonempty : (log.rollOver positive).chunks ≠ [] :=
    rollChunks_ne_nil retention.segmentMaxRecords log.chunks
  have offset : (Record.fromProduce first log.next timestamp).offset =
      (log.rollOver positive).next := (log.rollOver_next positive).symm
  have roomThere : (log.rollOver positive).next + 1 < u64Modulus := by
    rw [log.rollOver_next positive]
    exact room
  rcases appendLast_outcome (log.rollOver positive) nonempty offset fits roomThere rolledFiles with
    ⟨disk', ok, _, _⟩ | ⟨fault, part, disk', next, torn, _, _⟩
  · right
    simp only [ok] at stops
    refine ⟨?_, moved_on ?_ stops⟩
    · rintro ⟨_, fault, hit, _⟩
      obtain ⟨_, _, _, _, failed, _⟩ := appendLast_fault _
        (Record.fromProduce first log.next timestamp) nonempty hit rolledFiles
      rw [ok] at failed
      cases failed
    · change log.next < (SegmentedLog.extend _ _ nonempty offset fits roomThere).next
      rw [extend_next, log.rollOver_next positive]
      exact Nat.lt_succ_self _
  · simp only [torn] at stops
    obtain ⟨rfl, rfl⟩ := stops_there stops
    rcases mustRoll_cases log positive with ⟨must, chunks⟩ | ⟨must, same⟩
    · -- The segment that was opened stays.
      right
      refine ⟨fun fails => Bool.noConfusion (must.symm.trans fails.1), .inr (.inl ?_)⟩
      have longer := (appendLast_grows (log.rollOver positive).partition
        (.fromProduce first log.next timestamp) rolled).1
      rw [torn, length_segments, chunks, List.length_append, List.length_singleton] at longer
      rw [longer, length_segments]
      exact Nat.succ_ne_self _
    · obtain ⟨short, whole⟩ := append_torn (log.rollOver positive) nonempty offset fits roomThere
        next rolledFiles torn
      rw [same] at short whole
      by_cases enough : fault.Cuts (encode (Record.fromProduce first log.next timestamp))
      · exact .inl ⟨⟨must, fault, next, enough⟩, short enough⟩
      · refine .inr ⟨?_, whole enough⟩
        rintro ⟨_, other, hit, written⟩
        cases next.symm.trans hit
        exact enough written

/-- A failed append changes nothing that shows, now or after a restart, exactly
when its first file operation was the one that failed. -/
theorem append_failed {retention : RetentionPolicy} (positive : 0 < retention.segmentMaxRecords)
    (log : SegmentedLog) {batch : List ProduceRecord} {timestamp : DateTime}
    (fits : ∀ record ∈ batch, record.Fits) {disk later : Disk} (stored : disk.dir.files = log.files)
    {reason : PortError} {after : PartitionState}
    (failed : log.partition.append retention batch timestamp disk = some (.error reason, after, later)) :
    (log.partition.FailsFirst retention.segmentMaxRecords batch timestamp disk.faults ∧
      after = log.partition ∧
      ∃ torn, decode torn 0 = none ∧ later.dir.files = withTail log.files torn) ∨
    (¬ log.partition.FailsFirst retention.segmentMaxRecords batch timestamp disk.faults ∧
      Moved log after later.dir) := by
  cases numbers : materialize log.partition.nextOffset timestamp batch with
  | none => simp [append, numbers] at failed
  | some materialized =>
      have stops := append_stops numbers failed
      cases batch with
      | nil =>
          -- Nothing is written, so it is retention that failed.
          cases numbers
          refine .inr ⟨?_, ?_⟩
          · rintro ⟨_, _, _, _, nonempty, _⟩
            cases nonempty
          rcases stops with wrote | ⟨state, disk', ok, pruned⟩
          · cases wrote
          · cases ok
            have shorter := (applyRetention_next log.partition retention.maxRecords disk).2 reason
            rw [pruned] at shorter
            exact .inr (.inl (Nat.ne_of_lt (shorter rfl)))
      | cons first rest =>
          obtain ⟨tail, rfl⟩ := materialize_cons numbers
          obtain ⟨_, _, bounded⟩ := materialize_numbered numbers
          have room : log.next + 1 < u64Modulus := bounded _ List.mem_cons_self
          have recordFits := materialize_fits numbers fits _ List.mem_cons_self
          rcases roll_outcome log positive stored with
            ⟨rolled, rollOk, rolledFiles, _, schedule⟩ | ⟨fault, next, must, rollFailed⟩
          · exact appendRecords_failed positive log recordFits room rollOk rolledFiles schedule stops
          · simp only [appendRecords, rollFailed] at stops
            obtain ⟨rfl, rfl⟩ := stops_there stops
            refine .inl ⟨failsFirst_cons.mpr ⟨fault, next, ?_⟩, rfl, [], rfl, ?_⟩
            · intro kept
              rw [must] at kept
              cases kept
            · rw [withTail_empty]
              exact stored

end PartitionState

/-- Two partitions that hold the same log and answer every fetch alike. -/
structure Alike (left right : StoredPartition) : Prop where
  next : left.state.nextOffset = right.state.nextOffset
  start : left.state.startOffset = right.state.startOffset
  fetch : ∀ start max, left.state.fetch start max left.dir = right.state.fetch start max right.dir

namespace FileLogStore

/-- Nothing of a partition shows that a call was made, now or after a
restart. -/
structure Unchanged (before after : FileLogStore) (topic : TopicName) (partition : Nat) : Prop where
  stats : after.stats = before.stats
  kept : ∀ state part, before.topics.find? topic.asStr = some state →
    state.partitions[partition]? = some part →
    ∃ state' part', after.topics.find? topic.asStr = some state' ∧
      state'.partitions[partition]? = some part' ∧ Alike part' part ∧
      ∀ old, Restarted part old → ∀ dir listing, part'.Leaves dir → listing.Perm dir.names →
        ∃ new : StoredPartition, recoverPartition listing dir = .ok (new.state, new.dir) ∧ Alike new old

def FailsFirst (store : FileLogStore) (topic : TopicName) (partition : Nat)
    (records : List ProduceRecord) (timestamp : DateTime) (faults : List (Option Fault)) : Prop :=
  ∀ state part, store.topics.find? topic.asStr = some state →
    state.partitions[partition]? = some part →
    part.state.FailsFirst state.config.retention.segmentMaxRecords records timestamp faults

/-- A store whose failed appends have left no trace so far.  Restarts and crashes
in the middle of an append may have come in between. -/
inductive Settled : FileLogStore → Prop where
  | opened : Settled .new
  | created {store} (earlier : Settled store) {config : TopicConfig}
      (valid : config.retention.validate = .ok ()) (descends : Descends config.name.asStr)
      (faults : List (Option Fault)) : Settled (store.createTopic config faults).2
  | appended {store after topic partition records timestamp faults result} (earlier : Settled store)
      (fits : ∀ record ∈ records, record.Fits)
      (met : store.Traceless topic partition records timestamp faults)
      (called : store.append topic partition records timestamp faults = some (result, after)) :
      Settled after
  | fetched {store} (earlier : Settled store) (topic : TopicName) (partition start max : Nat) :
      Settled (store.fetch topic partition start max).2
  | restarted {store after} (earlier : Settled store) (restarts : Restarts store after) : Settled after
  | crashed {store lost after topic partition records timestamp faults result}
      (earlier : Settled store) (fits : ∀ record ∈ records, record.Fits)
      (stopped : store.append topic partition records timestamp faults = some (result, lost))
      (recovers : Recovers lost after) : Settled after

variable {store after : FileLogStore} {topic : TopicName} {partition : Nat} {state : TopicState}
  {part : StoredPartition}

theorem stats_update (found : store.topics.find? topic.asStr = some state)
    (here : state.partitions[partition]? = some part) (new : StoredPartition) :
    let updated : FileLogStore := { store with
      topics := store.topics.insert topic.asStr
        { state with partitions := state.partitions.set partition new } }
    updated.stats.topics = store.stats.topics ∧
    updated.stats.partitions = store.stats.partitions ∧
    updated.stats.records + part.state.totalRecords = store.stats.records + new.state.totalRecords ∧
    updated.stats.segments + part.state.segments.length =
      store.stats.segments + new.state.segments.length := by
  have sums := fun count => store.topics.sum_insert found
    { state with partitions := state.partitions.set partition new } count
  refine ⟨?_, ?_, ?_, ?_⟩
  · have ones := sums fun _ => 1
    simpa [stats, OrderedMap.values, Function.comp_def] using ones
  · have lengths := sums fun topic => topic.partitions.length
    rw [List.length_set] at lengths
    exact Nat.add_right_cancel lengths
  · have outer := sums fun topic => (topic.partitions.map fun part => part.state.totalRecords).sum
    have inner := sum_set state.partitions here new fun part => part.state.totalRecords
    dsimp only [stats] at outer ⊢
    omega
  · have outer := sums fun topic => (topic.partitions.map fun part => part.state.segments.length).sum
    have inner := sum_set state.partitions here new fun part => part.state.segments.length
    dsimp only [stats] at outer ⊢
    omega

theorem Traceless.every (every : store.Every InStep) {records : List ProduceRecord}
    (fits : ∀ record ∈ records, record.Fits) {timestamp : DateTime} {faults : List (Option Fault)}
    (met : store.Traceless topic partition records timestamp faults)
    {result : Except PortError AppendOutcome}
    (called : store.append topic partition records timestamp faults = some (result, after)) :
    after.Every InStep := by
  rcases every.shows_or topic partition with ⟨view, shows⟩ | refused
  · exact (shows.attempt every fits met called).1
  · obtain ⟨reason, unchanged⟩ := refused records timestamp faults
    rw [unchanged] at called
    cases called
    exact every

theorem Settled.every (settled : Settled store) : store.Every InStep := by
  induction settled with
  | opened => exact fun entry member => by cases member
  | created earlier valid descends faults ih => exact ih.createTopic valid faults
  | appended earlier fits met called ih => exact met.every ih fits called
  | @fetched store earlier topic partition start max ih =>
      unfold FileLogStore.Every at ih ⊢
      rw [store.fetch_topics]
      exact ih
  | restarted earlier restarts ih => exact Restarts.every restarts ih
  | crashed earlier fits stopped recovers ih => exact Recovers.every recovers (ih.stopped fits stopped)

theorem append_failed_located {log : SegmentedLog} (found : store.topics.find? topic.asStr = some state)
    (here : state.partitions[partition]? = some part) (represents : Represents part log)
    {records : List ProduceRecord} {timestamp : DateTime} {faults : List (Option Fault)}
    {reason : PortError}
    (failed : store.append topic partition records timestamp faults = some (.error reason, after)) :
    ∃ lost later, log.partition.append state.config.retention records timestamp
        { dir := part.dir, faults } = some (.error reason, lost, later) ∧
      after = { store with
        topics := store.topics.insert topic.asStr
          { state with partitions := state.partitions.set partition ⟨lost, later.dir⟩ } } := by
  simp only [append, found, here, represents.1] at failed
  generalize log.partition.append state.config.retention records timestamp
    { dir := part.dir, faults } = outcome at failed ⊢
  rcases outcome with _ | ⟨result, lost, later⟩
  · cases failed
  · cases result with
    | ok outcome => cases failed
    | error reason =>
        cases failed
        exact ⟨lost, later, rfl, rfl⟩

section Located

variable {log : SegmentedLog} {lost : PartitionState} {dir : Directory}

theorem unchanged_update (found : store.topics.find? topic.asStr = some state)
    (here : state.partitions[partition]? = some part) (represents : Represents part log) {torn : Bytes} (ended : decode torn 0 = none)
    (files : dir.files = withTail log.files torn) :
    Unchanged store { store with
      topics := store.topics.insert topic.asStr
        { state with partitions := state.partitions.set partition ⟨log.partition, dir⟩ } } topic
      partition := by
  have inStep : InStep part := ⟨log, represents⟩
  obtain ⟨represented, stored⟩ := represents
  have clean : part.dir.files = withTail log.files [] := stored.trans (withTail_empty log.files).symm
  obtain ⟨topics, partitions, records, segments⟩ := stats_update found here ⟨log.partition, dir⟩
  refine ⟨?_, ?_⟩
  · rw [represented] at records segments
    unfold stats at topics partitions records segments ⊢
    rw [LogStats.mk.injEq]
    exact ⟨topics, partitions, Nat.add_right_cancel records, Nat.add_right_cancel segments, rfl, rfl⟩
  · intro state' part' found' here'
    rw [found] at found'
    cases found'
    rw [here] at here'
    cases here'
    refine ⟨_, ⟨log.partition, dir⟩, (store.topics.find?_insert _ _ _).trans (if_pos rfl),
      List.getElem?_set_self (List.getElem?_eq_some_iff.mp here).1, ⟨?_, ?_, ?_⟩, ?_⟩
    · rw [represented]
    · rw [represented]
    · intro start max
      rw [represented, PartitionState.fetch_torn log ended files, PartitionState.fetch_torn log rfl clean]
    · intro old restarted left listing' leaves listed'
      obtain ⟨listing, listed, recovered⟩ := inStep.restarted restarted
      rw [leaves.flushed flushed_placed] at listed' ⊢
      rw [recover_torn log rfl clean listed] at recovered
      cases old
      cases recovered
      refine ⟨⟨log.partition, { dir with files := log.files }⟩, recover_torn log ended files listed', ?_⟩
      refine ⟨rfl, rfl, fun start max => ?_⟩
      exact (PartitionState.fetch_partition log rfl start max).trans
        (PartitionState.fetch_partition log rfl start max).symm

theorem changed_update (found : store.topics.find? topic.asStr = some state)
    (here : state.partitions[partition]? = some part) (represents : Represents part log)
    (moved : PartitionState.Moved log lost dir) :
    ¬ Unchanged store { store with
      topics := store.topics.insert topic.asStr
        { state with partitions := state.partitions.set partition ⟨lost, dir⟩ } } topic partition := by
  intro unchanged
  obtain ⟨represented, stored⟩ := represents
  obtain ⟨state', part', found', here', alike, reopens⟩ := unchanged.kept state part found here
  rw [(store.topics.find?_insert _ _ _).trans (if_pos rfl)] at found'
  cases found'
  rw [List.getElem?_set_self (List.getElem?_eq_some_iff.mp here).1] at here'
  cases here'
  rcases moved with further | longer | ⟨left, longer, leaves, files, next⟩
  · have same := alike.next
    rw [represented] at same
    exact absurd same (Nat.ne_of_gt further)
  · obtain ⟨_, _, _, segments⟩ := stats_update found here ⟨lost, dir⟩
    rw [unchanged.stats, represented] at segments
    exact longer (Nat.add_left_cancel segments).symm
  · -- A frame that gets to the file as a whole is there after a restart.
    obtain ⟨new, recovered, same⟩ := reopens ⟨log.partition, { part.dir with files := log.files }⟩
      ⟨_, .killed, _, .refl _, recover_torn log rfl (stored.trans (withTail_empty log.files).symm) (.refl _)⟩
      left _ leaves (.refl _)
    rw [recover_torn longer rfl (files.trans (withTail_empty longer.files).symm) (.refl _)] at recovered
    cases new
    cases recovered
    have ends : longer.next = log.next := same.next
    omega

end Located

/-- A failed append changes nothing that can be observed exactly when its first
file operation was the one that failed, and less than a whole frame is left behind,
in the file and in the buffer. -/
theorem failed_append_unchanged (settled : Settled store) {records : List ProduceRecord}
    (fits : ∀ record ∈ records, record.Fits) {timestamp : DateTime} {faults : List (Option Fault)}
    {reason : PortError}
    (failed : store.append topic partition records timestamp faults = some (.error reason, after)) :
    Unchanged store after topic partition ↔
      store.FailsFirst topic partition records timestamp faults := by
  cases found : store.topics.find? topic.asStr with
  | none =>
      simp only [append, found] at failed
      cases failed
      refine ⟨fun _ state part located => ?_, fun _ => ⟨rfl, fun state part located => ?_⟩⟩ <;>
        · rw [found] at located
          cases located
  | some state =>
      cases here : state.partitions[partition]? with
      | none =>
          simp only [append, found, here] at failed
          cases failed
          refine ⟨fun _ state' part located there => ?_, fun _ => ⟨rfl, fun state' part located there => ?_⟩⟩ <;>
            · rw [found] at located
              cases located
              rw [here] at there
              cases there
      | some part =>
          have topics := settled.every.find? found
          obtain ⟨log, represents⟩ := topics.partitions part (List.mem_of_getElem? here)
          obtain ⟨lost, later, stopped, rfl⟩ := append_failed_located found here represents failed
          have condition : store.FailsFirst topic partition records timestamp faults ↔
              log.partition.FailsFirst state.config.retention.segmentMaxRecords records timestamp
                faults := by
            rw [← represents.1]
            refine ⟨fun first => first state part found here, fun first state' part' located there => ?_⟩
            rw [found] at located
            cases located
            rw [here] at there
            cases there
            exact first
          rw [condition]
          rcases PartitionState.append_failed (validate_positive topics.valid) log fits
              (show (Disk.mk part.dir faults).dir.files = log.files from represents.2) stopped with
            ⟨first, rfl, torn, ended, files⟩ | ⟨other, moved⟩
          · exact iff_of_true (unchanged_update found here represents ended files) first
          · exact iff_of_false (changed_update found here represents moved) other

theorem Settled.events : ∃ store, Settled store ∧ store.topics.find? eventsTopic.name.asStr =
    some { config := eventsTopic, partitions := [{ state := .fresh, dir := .empty }] } :=
  ⟨_, Settled.opened.created (show eventsTopic.retention.validate = .ok () from rfl) (by decide) [],
    (OrderedMap.find?_insert _ _ _ _).trans (if_pos rfl)⟩

/-- A record whose segment cannot be created. -/
theorem failed_append_unchanged_creation :
    ∃ store after, Settled store ∧
      store.append eventsTopic.name 0 [{ key := none, payload := [1] }] .epoch
        [some { written := 0, reason := "too many open files" }] =
        some (.error (.transient "too many open files"), after) ∧
      Unchanged store after eventsTopic.name 0 := by
  obtain ⟨store, settled, found⟩ := Settled.events
  obtain ⟨after, failed, _⟩ := append_located found
    (show [StoredPartition.mk .fresh .empty][0]? = some _ from rfl)
    (show PartitionState.fresh.append eventsTopic.retention [{ key := none, payload := [1] }] .epoch
      { dir := .empty, faults := [some { written := 0, reason := "too many open files" }] } =
      some (.error (.transient "too many open files"), .fresh, { dir := .empty, faults := [] }) from rfl)
  have fits : ∀ record ∈ [ProduceRecord.mk none [1]], record.Fits := by
    intro record member
    rw [List.mem_singleton.mp member]
    exact .keyless (by decide)
  refine ⟨store, after, settled, failed, (failed_append_unchanged settled fits failed).mpr ?_⟩
  intro state part located here
  rw [found] at located
  cases located
  cases here
  exact ⟨_, _, _, _, rfl, rfl, nofun⟩

/-- Two records, the second of which cannot be given a segment: the first one
stays. -/
theorem failed_append_kept :
    ∃ store after, Settled store ∧
      store.append eventsTopic.name 0
        [{ key := none, payload := [1] }, { key := none, payload := [2] }] .epoch
        [none, none, some { written := 0, reason := "too many open files" }] =
        some (.error (.transient "too many open files"), after) ∧
      ¬ Unchanged store after eventsTopic.name 0 := by
  obtain ⟨store, settled, found⟩ := Settled.events
  obtain ⟨part, disk, stops, next⟩ : ∃ part disk,
      PartitionState.fresh.append eventsTopic.retention
        [{ key := none, payload := [1] }, { key := none, payload := [2] }] .epoch
        { dir := .empty, faults := [none, none, some { written := 0, reason := "too many open files" }] } =
        some (.error (.transient "too many open files"), part, disk) ∧ part.nextOffset = 1 :=
    ⟨_, _, rfl, rfl⟩
  obtain ⟨after, failed, foundAfter⟩ := append_located found
    (show [StoredPartition.mk .fresh .empty][0]? = some _ from rfl) stops
  refine ⟨store, after, settled, failed, ?_⟩
  intro unchanged
  obtain ⟨state, kept, located, here, alike, _⟩ := unchanged.kept _ ⟨.fresh, .empty⟩ found rfl
  rw [foundAfter] at located
  cases located
  cases here
  rw [alike.next] at next
  cases next

end FileLogStore

end ConnectForge.Infra