import ConnectForge.Infra.Recovery

namespace ConnectForge.Infra

open SegmentedLog

/-! A partition over its whole life without I/O errors: appends under retention
and clean restarts. -/

/-- A record as submitted, with the timestamp of its batch. -/
structure Submission where
  record : ProduceRecord
  timestamp : DateTime
deriving DecidableEq

/-- The stored form of the submission that came in at the given position. -/
def Submission.stored (offset : Nat) (submission : Submission) : Record :=
  .fromProduce submission.record offset submission.timestamp

def submissions (batch : List ProduceRecord) (timestamp : DateTime) : List Submission :=
  batch.map fun record => { record, timestamp }

/-- The partition and directory states an undisturbed store goes through, with
everything that was submitted to it and everything it returned from appends,
oldest first. -/
inductive Undisturbed : List Submission → List Record → PartitionState → Directory → Prop where
  | fresh : Undisturbed [] [] .fresh .empty
  | append {submitted returned part dir} {retention : RetentionPolicy}
      {batch : List ProduceRecord} {timestamp : DateTime} {outcome part' disk'}
      (earlier : Undisturbed submitted returned part dir)
      (valid : retention.validate = .ok ())
      (fits : ∀ record ∈ batch, record.Fits)
      (appended : part.append retention batch timestamp { dir, faults := [] } =
        some (.ok outcome, part', disk')) :
      Undisturbed (submitted ++ submissions batch timestamp) (returned ++ outcome.records) part'
        disk'.dir
  | reopen {submitted returned part dir} {listing : List String} {part' dir'}
      (earlier : Undisturbed submitted returned part dir)
      (listed : listing.Perm dir.names)
      (recovered : recoverPartition listing dir = .ok (part', dir')) :
      Undisturbed submitted returned part' dir'

/-- The log holds the end of a history of records that are numbered from
zero. -/
structure Retains (history : List Record) (log : SegmentedLog) : Prop where
  numbered : Numbered 0 history
  total : log.next = history.length
  records : log.records = history.drop log.start

theorem Retains.empty : Retains [] .empty := ⟨rfl, rfl, rfl⟩

theorem Retains.start_le {history : List Record} {log : SegmentedLog}
    (retains : Retains history log) : log.start ≤ history.length := by
  rw [← retains.total]
  exact Nat.le_add_right log.start log.records.length

theorem Retains.drop_append {history : List Record} {log : SegmentedLog}
    (retains : Retains history log) (added : List Record) :
    (history ++ added).drop log.start = log.records ++ added := by
  rw [List.drop_append_of_le_length retains.start_le, ← retains.records]

theorem Retains.shift {history added : List Record} {log kept : SegmentedLog}
    {gone : List (List Record)} (retains : Retains history log) (numbered : Numbered log.next added)
    (records : log.records ++ added = gone.flatten ++ kept.records)
    (start : kept.start = log.start + gone.flatten.length) : Retains (history ++ added) kept := by
  have whole : (history ++ added).drop log.start = gone.flatten ++ kept.records := by
    rw [retains.drop_append, records]
  refine ⟨?_, ?_, ?_⟩
  · refine numbered_append.mpr ⟨retains.numbered, ?_⟩
    rw [Nat.zero_add, ← retains.total]
    exact numbered
  · have sizes := congrArg List.length whole
    have start_le := retains.start_le
    rw [List.length_drop, List.length_append, List.length_append] at sizes
    rw [next, start, List.length_append]
    omega
  · rw [start, ← List.drop_drop, whole, List.drop_left]

theorem Retains.slice {history : List Record} {log : SegmentedLog} (retains : Retains history log)
    (start max : Nat) :
    log.view.slice start max =
      ((history.drop (Nat.max start log.start)).take max).map Record.truncate := by
  have above : log.start ≤ Nat.max start log.start := Nat.le_max_right start log.start
  rw [PartitionLog.slice]
  change (List.drop _ (log.records.map Record.truncate)).take max = _
  rw [retains.records, ← List.map_drop, ← List.map_take, List.drop_drop]
  congr 3
  exact Nat.add_sub_cancel' above

theorem validate_positive {retention : RetentionPolicy} (valid : retention.validate = .ok ()) :
    0 < retention.segmentMaxRecords := by
  unfold RetentionPolicy.validate at valid
  split at valid
  · contradiction
  · omega

theorem materialize_stored {next : Nat} {timestamp : DateTime} {batch : List ProduceRecord}
    {records : List Record} (materialized : materialize next timestamp batch = some records) :
    records = (submissions batch timestamp).mapIdx fun index submission =>
      submission.stored (next + index) := by
  induction batch generalizing next records with
  | nil =>
      cases materialized
      rfl
  | cons record rest ih =>
      unfold materialize at materialized
      split at materialized
      · obtain ⟨tail, found, rfl⟩ := Option.map_eq_some_iff.mp materialized
        have split : submissions (record :: rest) timestamp =
            { record, timestamp } :: submissions rest timestamp := rfl
        rw [ih found, split, List.mapIdx_cons]
        simp only [Nat.add_zero, Nat.add_assoc, Nat.add_comm 1]
        rfl
      · contradiction

/-- An append on a disk without errors, from a partition that represents a
log. -/
theorem append_quiet {retention : RetentionPolicy} (valid : retention.validate = .ok ())
    {log : SegmentedLog} {batch : List ProduceRecord} {timestamp : DateTime}
    (fits : ∀ record ∈ batch, record.Fits) {dir : Directory} (stored : dir.files = log.files)
    {materialized : List Record} (numbers : materialize log.next timestamp batch = some materialized) :
    ∃ gone kept later, log.partition.append retention batch timestamp { dir, faults := [] } =
        some (.ok { records := materialized, truncatedTo := if gone = [] then none else some kept.start },
          kept.partition, later) ∧
      PartitionState.Appended retention.segmentMaxRecords retention.maxRecords log materialized
        { dir, faults := [] } gone kept later := by
  rcases PartitionState.append_outcome (validate_positive valid) log numbers fits
      (show (Disk.mk dir []).dir.files = log.files from stored) with
    success | ⟨reason, part, count, gone, kept, torn, later, noisy, _⟩
  · exact success
  · exact absurd (Disk.Quiet.of_nil rfl) noisy

/-- Every state of an undisturbed partition represents the end of what it was
given. -/
theorem Undisturbed.represents {submitted : List Submission} {returned : List Record}
    {part : PartitionState} {dir : Directory} (reached : Undisturbed submitted returned part dir) :
    returned = submitted.mapIdx (fun index submission => submission.stored index) ∧
      ∃ log : SegmentedLog, part = log.partition ∧ dir.files = log.files ∧ Retains returned log := by
  induction reached with
  | fresh => exact ⟨rfl, .empty, rfl, rfl, .empty⟩
  | @append submitted returned part dir retention batch timestamp outcome part' disk' earlier valid
      fits appended ih =>
      obtain ⟨recorded, log, rfl, stored, retains⟩ := ih
      cases numbers : materialize log.next timestamp batch with
      | none =>
          have panicked : materialize log.partition.nextOffset timestamp batch = none := numbers
          simp [PartitionState.append, panicked] at appended
      | some materialized =>
          obtain ⟨gone, kept, later, ok, result⟩ := append_quiet valid fits stored numbers
          rw [ok] at appended
          cases appended
          refine ⟨?_, kept, rfl, result.files, ?_⟩
          · have length : log.next = submitted.length := by
              rw [retains.total, recorded, List.length_mapIdx]
            rw [List.mapIdx_append, ← recorded, materialize_stored numbers, length]
            simp only [Nat.add_comm]
          · apply retains.shift (materialize_numbered numbers).2.1 _ result.start
            have records := congrArg List.flatten result.chunks
            rw [flatten_foldl_pushRecord, List.flatten_append] at records
            exact records
  | @reopen submitted returned part dir listing part' dir' earlier listed recovered ih =>
      obtain ⟨recorded, log, rfl, stored, retains⟩ := ih
      have reopened := recover_torn log rfl (stored.trans (withTail_empty log.files).symm) listed
      rw [reopened] at recovered
      cases recovered
      exact ⟨recorded, log, rfl, rfl, retains⟩

/-- Every fetch is of the records the partition was given, unchanged, from the first
one it still has. -/
def PartitionState.Serves (given : List Record) (part : PartitionState) (dir : Directory) : Prop :=
  ∀ start max, ∃ fetched, part.fetch start max dir = .ok fetched ∧
    fetched.records = ((given.drop (Nat.max start part.startOffset)).take max).map Record.truncate

theorem Undisturbed.serves {submitted : List Submission} {returned : List Record}
    {part : PartitionState} {dir : Directory} (reached : Undisturbed submitted returned part dir) :
    part.Serves returned dir := by
  obtain ⟨_, log, rfl, stored, retains⟩ := reached.represents
  intro start max
  exact ⟨_, PartitionState.fetch_partition log stored start max, retains.slice start max⟩

theorem materialize_room {next : Nat} (timestamp : DateTime) {batch : List ProduceRecord}
    (room : next + batch.length < u64Modulus) :
    ∃ materialized, materialize next timestamp batch = some materialized := by
  induction batch generalizing next with
  | nil => exact ⟨[], rfl⟩
  | cons record rest ih =>
      rw [List.length_cons] at room
      obtain ⟨materialized, found⟩ := ih (show next + 1 + rest.length < u64Modulus by omega)
      have fits : next + 1 < u64Modulus := by omega
      exact ⟨_, by rw [materialize, if_pos fits, found, Option.map_some]⟩

theorem Undisturbed.can_append {submitted : List Submission} {returned : List Record}
    {part : PartitionState} {dir : Directory} (reached : Undisturbed submitted returned part dir)
    {retention : RetentionPolicy} (valid : retention.validate = .ok ()) {batch : List ProduceRecord}
    (fits : ∀ record ∈ batch, record.Fits) (timestamp : DateTime)
    (room : submitted.length + batch.length < u64Modulus) :
    ∃ outcome part' disk', part.append retention batch timestamp { dir, faults := [] } =
      some (.ok outcome, part', disk') := by
  obtain ⟨recorded, log, rfl, stored, retains⟩ := reached.represents
  have total : log.next = submitted.length := by
    rw [retains.total, recorded, List.length_mapIdx]
  rw [← total] at room
  obtain ⟨materialized, numbers⟩ := materialize_room timestamp room
  obtain ⟨gone, kept, later, ok, _⟩ := append_quiet valid fits stored numbers
  exact ⟨_, _, _, ok⟩

theorem Undisturbed.can_reopen {submitted : List Submission} {returned : List Record}
    {part : PartitionState} {dir : Directory} (reached : Undisturbed submitted returned part dir)
    {listing : List String} (listed : listing.Perm dir.names) :
    ∃ part' dir', recoverPartition listing dir = .ok (part', dir') := by
  obtain ⟨_, log, rfl, stored, _⟩ := reached.represents
  exact ⟨_, _, recover_torn log rfl (stored.trans (withTail_empty log.files).symm) listed⟩

def PartitionState.firstKept (part : PartitionState) : Nat :=
  (part.segments.head?.map Segment.base).getD 0

theorem firstKept_partition (log : SegmentedLog) : log.partition.firstKept = log.start := by
  cases shape : log.chunks with
  | nil => simp [PartitionState.firstKept, partition, places, shape, placed, log.unpruned shape]
  | cons head rest => simp [PartitionState.firstKept, partition, places, shape, placed]

/-- Neither rolling, retention nor restarts disturb the log: records are
numbered in the order they came in, the directory can be opened again, and a fetch
returns exactly those between the first wanted and retained offset and the end. -/
theorem undisturbed_log {submitted : List Submission} {returned : List Record}
    {part : PartitionState} {dir : Directory} (reached : Undisturbed submitted returned part dir) :
    returned = submitted.mapIdx (fun index submission => submission.stored index) ∧
    (∀ listing : List String, listing.Perm dir.names →
      ∃ part' dir', recoverPartition listing dir = .ok (part', dir')) ∧
    ∀ start max : Nat, ∃ result, part.fetch start max dir = .ok result ∧
      result.records.map Record.offset =
        List.range' (Nat.max start part.firstKept)
          (min (Nat.max start part.firstKept + max) submitted.length -
            Nat.max start part.firstKept) ∧
      (∀ record ∈ result.records, ∃ submission,
        submitted[record.offset]? = some submission ∧
          record = (submission.stored record.offset).truncate) ∧
      result.nextOffset = nextAfter result.records (Nat.max start part.firstKept) ∧
      result.highWatermark = submitted.length := by
  have reopens := fun (listing : List String) (listed : listing.Perm dir.names) => reached.can_reopen listed
  obtain ⟨recorded, log, rfl, stored, retains⟩ := reached.represents
  refine ⟨recorded, reopens, fun start max => ⟨_, PartitionState.fetch_partition log stored start max, ?_⟩⟩
  have total : returned.length = submitted.length := by rw [recorded, List.length_mapIdx]
  have slice := retains.slice start max
  rw [firstKept_partition]
  refine ⟨?_, ?_, rfl, ?_⟩
  · have size := log.view.length_slice start max
    have same : min max (log.next - Nat.max start log.start) =
        min (Nat.max start log.start + max) submitted.length - Nat.max start log.start := by
      rw [retains.total, total]
      omega
    rw [log.view_next] at size
    rw [← same]
    exact size ▸ log.view.slice_numbered start max
  · intro record member
    change record ∈ log.view.slice start max at member
    rw [slice] at member
    obtain ⟨whole, inSlice, rfl⟩ := List.mem_map.mp member
    obtain ⟨index, found⟩ := List.mem_iff_getElem?.mp
      (List.mem_of_mem_drop (List.mem_of_mem_take inSlice))
    have offset : whole.offset = index := by simpa using retains.numbered.getElem? found
    rw [recorded, List.getElem?_mapIdx] at found
    obtain ⟨submission, submittedHere, rfl⟩ := Option.map_eq_some_iff.mp found
    exact ⟨submission, submittedHere, rfl⟩
  · rw [← total, ← retains.total]
    exact log.view_next

/-- One keyed record, appended to an empty partition, which opens again and is read
then. -/
theorem undisturbed_log_restarted :
    ∃ returned part dir part' dir',
      Undisturbed [{ record := { key := some "k", payload := [1] }, timestamp := .epoch }] returned part dir ∧
      recoverPartition dir.names dir = .ok (part', dir') ∧
      returned = [{ offset := 0, timestamp := .epoch, key := some "k", payload := [1] }] ∧
      ∀ start max, ∃ result, part'.fetch start max dir' = .ok result ∧ result.highWatermark = 1 := by
  have fits : ∀ record ∈ [ProduceRecord.mk (some "k") [1]], record.Fits := by
    intro record member
    rw [List.mem_singleton.mp member]
    refine ⟨?_, by decide⟩
    intro key present
    cases present
    decide
  obtain ⟨outcome, part, disk, appended⟩ := Undisturbed.fresh.can_append
    (show (RetentionPolicy.mk 1 0).validate = .ok () from rfl) fits .epoch (by decide)
  have live := Undisturbed.fresh.append (show (RetentionPolicy.mk 1 0).validate = .ok () from rfl)
    fits appended
  obtain ⟨part', dir', recovered⟩ := (undisturbed_log live).2.1 disk.dir.names (List.Perm.refl _)
  have reached := live.reopen (List.Perm.refl disk.dir.names) recovered
  obtain ⟨recorded, _, fetched⟩ := undisturbed_log reached
  refine ⟨_, _, _, _, _, live, recovered, recorded, fun start max => ?_⟩
  obtain ⟨result, found, _, _, _, watermark⟩ := fetched start max
  exact ⟨result, found, watermark⟩

end ConnectForge.Infra
