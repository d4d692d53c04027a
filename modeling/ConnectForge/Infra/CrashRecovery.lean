import ConnectForge.Infra.LogRepresentation
import ConnectForge.Infra.SegmentScan

namespace ConnectForge.Infra

open ConnectForge.Data SegmentedLog

/-! A partition over its whole life with crashes.

A crash stops an append at one of its file operations, or behind the last of
them: the operation that does not happen is an error of the schedule, and a
write that is cut short leaves a prefix of its bytes.  The state in memory is
lost, and recovery rebuilds it from the directory. -/

/-- What happened to a batch, with the records it was numbered as. -/
inductive BatchEvent where
  | acknowledged (batch : List ProduceRecord) (numbered : List Record)
  | inFlight (batch : List ProduceRecord) (numbered : List Record)

namespace BatchEvent

def batch : BatchEvent → List ProduceRecord
  | acknowledged batch _ => batch
  | inFlight batch _ => batch

def numbered : BatchEvent → List Record
  | acknowledged _ numbered => numbered
  | inFlight _ numbered => numbered

end BatchEvent

/-- The states of a partition that is appended to and crashes any number of
times, with the batches it was given, oldest first. -/
inductive CrashRun : List BatchEvent → PartitionState → Directory → Prop where
  | fresh : CrashRun [] .fresh .empty
  | append {events part dir} {retention : RetentionPolicy} {batch : List ProduceRecord}
      {timestamp : DateTime} {outcome part' disk'} (earlier : CrashRun events part dir)
      (valid : retention.validate = .ok ())
      (appended : part.append retention batch timestamp { dir, faults := [] } =
        some (.ok outcome, part', disk')) :
      CrashRun (events ++ [.acknowledged batch outcome.records]) part' disk'.dir
  | crash {events part dir} {retention : RetentionPolicy} {batch : List ProduceRecord}
      {timestamp : DateTime} {numbered : List Record} {faults : List (Option Fault)}
      {result lost disk'} {listing : List String} {part' dir'} (earlier : CrashRun events part dir)
      (valid : retention.validate = .ok ())
      (materialized : materialize part.nextOffset timestamp batch = some numbered)
      (stopped : part.append retention batch timestamp { dir, faults } =
        some (result, lost, disk'))
      (listed : listing.Perm disk'.dir.names)
      (recovered : recoverPartition listing disk'.dir = .ok (part', dir')) :
      CrashRun (events ++ [.inFlight batch numbered]) part' dir'

/-- The records a run can have written: all of every acknowledged batch, and a
prefix of every batch that was in flight. -/
inductive Written : List BatchEvent → List Record → Prop where
  | nil : Written [] []
  | acknowledged {events history} (batch : List ProduceRecord) (numbered : List Record)
      (earlier : Written events history) :
      Written (events ++ [.acknowledged batch numbered]) (history ++ numbered)
  | inFlight {events history} (batch : List ProduceRecord) (numbered : List Record) (count : Nat)
      (earlier : Written events history) :
      Written (events ++ [.inFlight batch numbered]) (history ++ numbered.take count)

def Removed (dir : Directory) (record : Record) : Prop :=
  ∃ base chunk, (logPath base, Segment.contents chunk) ∈ dir.removed ∧ record ∈ chunk

/-- What a partition owes its writers: `history` is everything that was ever
written, `held` everything that can be read. -/
structure Durable (events : List BatchEvent) (part : PartitionState) (dir : Directory)
    (history held : List Record) : Prop where
  readable : ∃ result, part.fetch 0 part.nextOffset dir = .ok result ∧ result.records = held
  contiguous : Numbered part.startOffset held ∧ part.startOffset + held.length = part.nextOffset
  submitted : ∀ event ∈ events,
    event.numbered.map Record.submitted = event.batch
  written : Written events history
  kept : ∀ batch numbered, .acknowledged batch numbered ∈ events → ∀ record ∈ numbered,
    record.truncate ∈ held ∨ Removed dir record
  nothingElse : ∀ record ∈ held, ∃ original ∈ history, record = original.truncate
  unique : ∀ batch numbered, .acknowledged batch numbered ∈ events → ∀ record ∈ numbered,
    ∀ other ∈ history, other.offset = record.offset → other = record
  reserved : events.Pairwise fun earlier later =>
    ∀ batch numbered, earlier = .acknowledged batch numbered →
      ∀ record ∈ numbered, ∀ other ∈ later.numbered, record.offset < other.offset

theorem Written.acknowledged_mem {events : List BatchEvent} {history : List Record}
    (written : Written events history) {batch : List ProduceRecord} {numbered : List Record}
    (member : .acknowledged batch numbered ∈ events) : ∀ record ∈ numbered, record ∈ history := by
  induction written with
  | nil => simp at member
  | acknowledged other otherNumbered earlier ih =>
      intro record inBatch
      rcases List.mem_append.mp member with before | last
      · exact List.mem_append_left _ (ih before record inBatch)
      · cases List.mem_singleton.mp last
        exact List.mem_append_right _ inBatch
  | inFlight other otherNumbered count earlier ih =>
      intro record inBatch
      rcases List.mem_append.mp member with before | last
      · exact List.mem_append_left _ (ih before record inBatch)
      · cases List.mem_singleton.mp last

theorem Written.mem_numbered {events : List BatchEvent} {history : List Record}
    (written : Written events history) {record : Record} (member : record ∈ history) :
    ∃ event ∈ events, record ∈ event.numbered := by
  induction written with
  | nil => simp at member
  | acknowledged batch numbered earlier ih =>
      rcases List.mem_append.mp member with before | last
      · obtain ⟨event, found, inEvent⟩ := ih before
        exact ⟨event, List.mem_append_left _ found, inEvent⟩
      · exact ⟨_, List.mem_append_right _ List.mem_cons_self, last⟩
  | inFlight batch numbered count earlier ih =>
      rcases List.mem_append.mp member with before | last
      · obtain ⟨event, found, inEvent⟩ := ih before
        exact ⟨event, List.mem_append_left _ found, inEvent⟩
      · exact ⟨_, List.mem_append_right _ List.mem_cons_self, List.mem_of_mem_take last⟩

/-- The invariant behind it, in terms of the log the partition represents. -/
structure CrashInvariant (events : List BatchEvent) (dir : Directory) (history : List Record)
    (log : SegmentedLog) : Prop where
  stored : dir.files = log.files
  retains : Retains history log
  written : Written events history
  pruned : ∀ record ∈ history.take log.start, Removed dir record
  submitted : ∀ event ∈ events,
    event.numbered.map Record.submitted = event.batch
  reserved : events.Pairwise fun earlier later =>
    ∀ batch numbered, earlier = .acknowledged batch numbered →
      ∀ record ∈ numbered, ∀ other ∈ later.numbered, record.offset < other.offset

/-- An append or a crash in the middle of one keeps the invariant. -/
theorem CrashInvariant.step {events : List BatchEvent} {dir later : Directory}
    {history : List Record} {log kept : SegmentedLog} (invariant : CrashInvariant events dir history log)
    {timestamp : DateTime} {event : BatchEvent} {added : List Record} {gone : List (List Record)}
    (materialized : materialize log.next timestamp event.batch = some event.numbered)
    (front : added <+: event.numbered)
    (written : Written (events ++ [event]) (history ++ added))
    (records : log.records ++ added = gone.flatten ++ kept.records)
    (start : kept.start = log.start + gone.flatten.length)
    (stored : later.files = kept.files)
    (removed : later.removed = dir.removed ++ placedFiles (placed log.start gone)) :
    CrashInvariant (events ++ [event]) later (history ++ added) kept := by
  have numbered : Numbered log.next event.numbered := (materialize_numbered materialized).2.1
  have addedNumbered : Numbered log.next added := by
    obtain ⟨missing, whole⟩ := front
    rw [← whole] at numbered
    exact (numbered_append.mp numbered).1
  refine ⟨stored, invariant.retains.shift addedNumbered records start, written, ?_, ?_, ?_⟩
  · intro record member
    have split : (history ++ added).take kept.start =
        history.take log.start ++ gone.flatten := by
      rw [start, List.take_add, invariant.retains.drop_append, records, List.take_left,
        List.take_append_of_le_length invariant.retains.start_le]
    rw [split] at member
    rcases List.mem_append.mp member with before | now
    · obtain ⟨base, chunk, found, inChunk⟩ := invariant.pruned record before
      exact ⟨base, chunk, by rw [removed]; exact List.mem_append_left _ found, inChunk⟩
    · obtain ⟨chunk, inGone, inChunk⟩ := List.mem_flatten.mp now
      obtain ⟨place, found, rfl⟩ := mem_placed inGone log.start
      refine ⟨place.1, place.2, ?_, inChunk⟩
      rw [removed]
      exact List.mem_append_right _ (List.mem_map.mpr ⟨place, found, rfl⟩)
  · intro other member
    rcases List.mem_append.mp member with before | last
    · exact invariant.submitted other before
    · rw [List.mem_singleton.mp last]
      exact materialize_submitted materialized
  · refine List.pairwise_append.mpr ⟨invariant.reserved, List.pairwise_singleton _ _, ?_⟩
    rintro earlier before last member batch acknowledged rfl record inBatch other inLast
    rw [List.mem_singleton.mp member] at inLast
    have old := invariant.retains.numbered.bounds
      (invariant.written.acknowledged_mem before record inBatch)
    have new := numbered.bounds inLast
    have total := invariant.retains.total
    omega

/-- Wherever an append stops, a prefix of the batch is in the log. -/
theorem append_stopped {retention : RetentionPolicy} (valid : retention.validate = .ok ())
    {log : SegmentedLog} {batch : List ProduceRecord} {timestamp : DateTime}
    (fits : ∀ record ∈ batch, record.Fits) {disk later : Disk} (stored : disk.dir.files = log.files)
    {numbered : List Record} (materialized : materialize log.next timestamp batch = some numbered)
    {result : Except PortError AppendOutcome} {lost : PartitionState}
    (stopped : log.partition.append retention batch timestamp disk = some (result, lost, later)) :
    ∃ count gone kept torn,
      PartitionState.Interrupted log numbered disk count gone kept torn later := by
  rcases PartitionState.append_outcome (validate_positive valid) log materialized fits stored with
    ⟨gone, kept, after, ok, appended⟩ | ⟨reason, part, count, gone, kept, torn, after, _, failed, cut⟩
  · rw [ok] at stopped
    cases stopped
    refine ⟨numbered.length, gone, kept, [], ?_, appended.start, rfl, ?_, appended.removed⟩
    · have records := congrArg List.flatten appended.chunks
      rw [flatten_foldl_pushRecord, List.flatten_append] at records
      rw [List.take_length]
      exact records
    · rw [withTail_empty]
      exact appended.files
  · rw [failed] at stopped
    cases stopped
    exact ⟨count, gone, kept, torn, cut⟩

theorem CrashRun.invariant {events : List BatchEvent} {part : PartitionState} {dir : Directory}
    (run : CrashRun events part dir) (sized : ∀ event ∈ events, ∀ record ∈ event.batch, record.Fits) :
    ∃ (log : SegmentedLog) (history : List Record),
      part = log.partition ∧ CrashInvariant events dir history log := by
  induction run with
  | fresh =>
      refine ⟨.empty, [], rfl, rfl, .empty, .nil, ?_, ?_, .nil⟩ <;> simp
  | @append events part dir retention batch timestamp outcome part' disk' earlier valid appended ih =>
      obtain ⟨log, history, rfl, invariant⟩ :=
        ih fun event member => sized event (List.mem_append_left _ member)
      have fits : ∀ record ∈ batch, record.Fits :=
        sized (.acknowledged batch outcome.records) (by simp)
      cases materialized : materialize log.next timestamp batch with
      | none =>
          have panicked : materialize log.partition.nextOffset timestamp batch = none := materialized
          simp [PartitionState.append, panicked] at appended
      | some numbered =>
          obtain ⟨gone, kept, later, ok, result⟩ :=
            append_quiet valid fits invariant.stored materialized
          rw [ok] at appended
          cases appended
          have records := congrArg List.flatten result.chunks
          rw [flatten_foldl_pushRecord, List.flatten_append] at records
          exact ⟨kept, _, rfl, invariant.step materialized List.prefix_rfl
            (.acknowledged batch numbered invariant.written) records result.start result.files
            result.removed⟩
  | @crash events part dir retention batch timestamp numbered faults result lost disk' listing part'
      dir' earlier valid materialized stopped listed recovered ih =>
      obtain ⟨log, history, rfl, invariant⟩ :=
        ih fun event member => sized event (List.mem_append_left _ member)
      have fits : ∀ record ∈ batch, record.Fits := sized (.inFlight batch numbered) (by simp)
      obtain ⟨count, gone, kept, torn, cut⟩ :=
        append_stopped valid fits invariant.stored materialized stopped
      rw [recover_torn kept cut.ended cut.files listed] at recovered
      cases recovered
      exact ⟨kept, _, rfl, invariant.step materialized (List.take_prefix count numbered)
        (.inFlight batch numbered count invariant.written) cut.records cut.start rfl cut.removed⟩

theorem CrashInvariant.durable {events : List BatchEvent} {dir : Directory} {history : List Record}
    {log : SegmentedLog} (invariant : CrashInvariant events dir history log) :
    Durable events log.partition dir history (log.records.map Record.truncate) where
  readable := by
    refine ⟨_, PartitionState.fetch_partition log invariant.stored 0 log.partition.nextOffset, ?_⟩
    have first : Nat.max 0 log.start - log.start = 0 :=
      Nat.sub_eq_zero_of_le (Nat.max_le.mpr ⟨Nat.zero_le _, Nat.le_refl _⟩)
    have all : (log.records.map Record.truncate).length ≤ log.partition.nextOffset := by
      rw [List.length_map]
      exact Nat.le_add_left log.records.length log.start
    change (List.drop (Nat.max 0 log.start - log.start) (log.records.map Record.truncate)).take
      log.partition.nextOffset = _
    rw [first, List.drop_zero, List.take_of_length_le all]
  contiguous := by
    refine ⟨?_, ?_⟩
    · unfold Numbered
      rw [List.map_map, List.length_map]
      exact log.numbered
    · rw [List.length_map]
      rfl
  submitted := invariant.submitted
  written := invariant.written
  kept := by
    intro batch numbered member record inBatch
    have inHistory := invariant.written.acknowledged_mem member record inBatch
    rw [← List.take_append_drop log.start history, List.mem_append] at inHistory
    rcases inHistory with pruned | retained
    · exact .inr (invariant.pruned record pruned)
    · rw [← invariant.retains.records] at retained
      exact .inl (List.mem_map_of_mem retained)
  nothingElse := by
    intro record member
    obtain ⟨original, retained, rfl⟩ := List.mem_map.mp member
    rw [invariant.retains.records] at retained
    exact ⟨original, List.mem_of_mem_drop retained, rfl⟩
  unique := by
    intro batch numbered member record inBatch other inHistory same
    exact invariant.retains.numbered.unique inHistory
      (invariant.written.acknowledged_mem member record inBatch) same
  reserved := invariant.reserved

/-- A partition survives any number of crashes during appends, as long as the
keys and payloads it is given fit the 32-bit lengths of the framing. -/
theorem crash_recovery {events : List BatchEvent} {part : PartitionState} {dir : Directory}
    (run : CrashRun events part dir) (sized : ∀ event ∈ events, ∀ record ∈ event.batch, record.Fits) :
    (∃ history held, Durable events part dir history held) ∧
    ∀ (retention : RetentionPolicy) (batch : List ProduceRecord) (timestamp : DateTime)
      (faults : List (Option Fault)) (result : Except PortError AppendOutcome)
      (lost : PartitionState) (disk : Disk) (listing : List String),
      retention.validate = .ok () → (∀ record ∈ batch, record.Fits) →
      part.append retention batch timestamp { dir, faults } = some (result, lost, disk) →
      listing.Perm disk.dir.names →
      ∃ part' dir', recoverPartition listing disk.dir = .ok (part', dir') := by
  obtain ⟨log, history, rfl, invariant⟩ := run.invariant sized
  refine ⟨⟨history, _, invariant.durable⟩, ?_⟩
  intro retention batch timestamp faults result lost disk listing valid fits stopped listed
  cases materialized : materialize log.next timestamp batch with
  | none =>
      have panicked : materialize log.partition.nextOffset timestamp batch = none := materialized
      simp [PartitionState.append, panicked] at stopped
  | some numbered =>
      obtain ⟨count, gone, kept, torn, cut⟩ :=
        append_stopped valid fits invariant.stored materialized stopped
      exact ⟨_, _, recover_torn kept cut.ended cut.files listed⟩

theorem append_first (record : ProduceRecord) {maxRecords : Nat} :
    PartitionState.fresh.append { segmentMaxRecords := 1, maxRecords } [record] .epoch
        { dir := .empty, faults := [] } =
      some (.ok { records := [Record.fromProduce record 0 .epoch], truncatedTo := none },
        { segments := [Segment.holding 0 [Record.fromProduce record 0 .epoch]]
          startOffset := 0
          nextOffset := 1 },
        { dir := {
            files := [(logPath 0, encode (Record.fromProduce record 0 .epoch))]
            removed := [] }
          faults := [] }) := by
  have numbers : materialize PartitionState.fresh.nextOffset .epoch [record] =
      some [Record.fromProduce record 0 .epoch] := rfl
  have rolled : PartitionState.fresh.roll 1 { dir := .empty, faults := [] } =
      (.ok (), { segments := [Segment.holding 0 []], startOffset := 0, nextOffset := 0 },
        { dir := { files := [(logPath 0, [])], removed := [] }, faults := [] }) := rfl
  have written := Segment.append_holding
    (show (Disk.mk { files := [(logPath 0, [])], removed := [] } []).nextFault = none from rfl) 0 []
    (Record.fromProduce record 0 .epoch)
  have single : ∀ (segment : Segment) (disk : Disk),
      PartitionState.applyRetention { segments := [segment], startOffset := 0, nextOffset := 1 }
        maxRecords disk =
      (.ok none, { segments := [segment], startOffset := 0, nextOffset := 1 }, disk) := by
    intro segment disk
    unfold PartitionState.applyRetention
    split <;> rfl
  simp only [PartitionState.append, numbers, PartitionState.appendRecords, rolled,
    PartitionState.appendLast, List.getLast?_singleton, written, List.dropLast_singleton,
    List.nil_append, Nat.zero_add, single]
  simp [Disk.appended, Disk.afterFault, Directory.modify]

theorem append_stops (part : PartitionState) (retention : RetentionPolicy)
    {batch : List ProduceRecord} {timestamp : DateTime} {numbered : List Record}
    (materialized : materialize part.nextOffset timestamp batch = some numbered) (disk : Disk) :
    ∃ result lost later, part.append retention batch timestamp disk = some (result, lost, later) := by
  simp only [PartitionState.append, materialized]
  split
  · exact ⟨_, _, _, rfl⟩
  · split <;> exact ⟨_, _, _, rfl⟩

/-- An acknowledged record, and a crash five bytes into the next one. -/
theorem crash_recovery_torn :
    ∃ part dir,
      CrashRun [
        .acknowledged [{ key := none, payload := [1] }]
          [{ offset := 0, timestamp := .epoch, key := none, payload := [1] }],
        .inFlight [{ key := none, payload := [2] }]
          [{ offset := 1, timestamp := .epoch, key := none, payload := [2] }]] part dir ∧
      ∃ history held, Durable [
        .acknowledged [{ key := none, payload := [1] }]
          [{ offset := 0, timestamp := .epoch, key := none, payload := [1] }],
        .inFlight [{ key := none, payload := [2] }]
          [{ offset := 1, timestamp := .epoch, key := none, payload := [2] }]] part dir history held := by
  have valid : (RetentionPolicy.mk 1 0).validate = .ok () := rfl
  have small : ∀ byte : UInt8, (ProduceRecord.mk none [byte]).Fits :=
    fun byte => ⟨by simp, by simp [u32Modulus]⟩
  have live := CrashRun.fresh.append valid (append_first { key := none, payload := [1] })
  have liveSized : ∀ event ∈ [BatchEvent.acknowledged [{ key := none, payload := [1] }]
      [Record.fromProduce { key := none, payload := [1] } 0 .epoch]],
      ∀ record ∈ event.batch, record.Fits := by
    simp [BatchEvent.batch, small]
  obtain ⟨result, lost, disk, stopped⟩ := append_stops
    { segments := [Segment.holding 0 [Record.fromProduce { key := none, payload := [1] } 0 .epoch]]
      startOffset := 0
      nextOffset := 1 } { segmentMaxRecords := 1, maxRecords := 0 }
    (show materialize 1 .epoch [ProduceRecord.mk none [2]] = some _ from rfl)
    { dir := {
        files := [(logPath 0, encode (Record.fromProduce { key := none, payload := [1] } 0 .epoch))]
        removed := [] }
      faults := [none, some { written := 5, reason := "disk full" }] }
  obtain ⟨part, dir, recovered⟩ := (crash_recovery live liveSized).2 _ _ _ _ _ _ _ _ valid
    (by simp [small]) stopped (List.Perm.refl _)
  have crashed := live.crash valid rfl stopped (List.Perm.refl _) recovered
  refine ⟨part, dir, crashed, (crash_recovery crashed ?_).1⟩
  simp [BatchEvent.batch, small]

section OversizedKey

/-! The length of a key is cut to 32 bits, so a key of `2 ^ 32` bytes is framed
with the length zero and reads back empty, with its own text in the place of
the payload. -/

def longKey (size : Nat) : String := String.ofList (List.replicate size 'a')

theorem length_longKey (size : Nat) : (asBytes (longKey size)).length = size := by
  have bytes : ((List.replicate size 'a').utf8Encode).size = size := by
    induction size with
    | zero => rfl
    | succ size ih =>
        have single : (String.utf8EncodeChar 'a').toByteArray.size = 1 := by decide
        rw [List.replicate_succ, List.utf8Encode_cons, ByteArray.size_append, ih,
          List.utf8Encode_singleton, single, Nat.add_comm]
  rw [asBytes, longKey, String.toByteArray_ofList, Array.length_toList]
  exact bytes

theorem decode_oversized {record : Record} {key : String} (present : record.key = some key)
    (size : (asBytes key).length = u32Modulus) :
    ∃ found next, decode (encode record) 0 = some (found, next) ∧ found.key = some "" := by
  obtain ⟨found, next, decoded, emptied⟩ := decode_long present (Nat.le_of_eq size.symm)
  refine ⟨found, next, decoded, ?_⟩
  rw [emptied, size, Nat.mod_self, List.take_zero]
  exact congrArg some (fromUtf8Lossy_asBytes "")

theorem recover_first_frame {data : Bytes} {found : Record} {next : Nat}
    (first : decode data 0 = some (found, next)) {dir : Directory}
    (stored : dir.files = [(logPath 0, data)]) :
    ∃ part' dir' result, recoverPartition dir.names dir = .ok (part', dir') ∧
      part'.fetch 0 part'.nextOffset dir' = .ok result ∧ found ∈ result.records := by
  have bases : (dir.names.filterMap segmentBase).mergeSort = [0] := by
    have zero : segmentBase (logPath 0) = some 0 := segmentBase_logPath (by decide)
    rw [Directory.names, stored]
    simp [zero]
  have readable : dir.read? (logPath 0) = some data := by
    rw [Directory.read?, stored]
    simp
  have forward : 0 < next := (decode_selfDelimiting.bounds first).1
  obtain ⟨rest, final, complete⟩ : ∃ rest final, Frames decode data 0 ((0, found) :: rest) final :=
    ⟨_, _, .frame first (decode_selfDelimiting.scan_frames
      (show data.length < data.length + next by omega))⟩
  have opened := Segment.open_frames complete readable
  have kept := Segment.read?_opened readable final
  generalize (if final < data.length then dir.modify (logPath 0) (·.take final) else dir) = dir'
    at opened kept
  let segment := Segment.scanned 0 ((0, found) :: rest) final
  let part : PartitionState :=
    { segments := [segment], startOffset := 0, nextOffset := 0 + segment.len }
  have state : recoverPartition dir.names dir = .ok (part, dir') := by
    simp only [recoverPartition, bases, openSegments, opened]
    rfl
  have size : part.nextOffset = rest.length + 1 := by
    simp [part, segment, Segment.scanned, Segment.len]
  have read : segment.readFrom 0 (rest.length + 1) dir' = .ok (found :: rest.map Prod.snd) := by
    have reads := Segment.readFrom_frames (complete.cut decode_selfDelimiting decode_take) kept 0
      (rest.length + 1)
    rw [List.drop_zero, List.take_of_length_le (by simp)] at reads
    exact reads
  have fetched : PartitionState.fetchSegments 0 dir' [segment] (rest.length + 1) =
      .ok (found :: rest.map Prod.snd) := by
    have inside : ¬ segment.base + segment.len ≤ 0 := by
      simp [segment, Segment.scanned, Segment.len]
    simp [PartitionState.fetchSegments, inside, read]
  have whole : part.fetch 0 part.nextOffset dir' = .ok {
      records := found :: rest.map Prod.snd
      nextOffset := nextAfter (found :: rest.map Prod.snd) 0
      highWatermark := part.nextOffset } := by
    have effectiveFrom : Nat.max 0 part.startOffset = 0 := rfl
    have segments : part.segments = [segment] := rfl
    rw [PartitionState.fetch, effectiveFrom, segments, size, fetched]
  exact ⟨part, dir', _, state, whole, List.mem_cons_self⟩

/-- The record of an acknowledged append, lost to a restart because of the size
of its key. -/
theorem oversized_key_lost :
    ∃ part dir,
      CrashRun [
        .acknowledged [{ key := some (longKey u32Modulus), payload := [1] }]
          [{ offset := 0, timestamp := .epoch, key := some (longKey u32Modulus), payload := [1] }],
        .inFlight [] []] part dir ∧
      ¬ ∃ history held, Durable [
        .acknowledged [{ key := some (longKey u32Modulus), payload := [1] }]
          [{ offset := 0, timestamp := .epoch, key := some (longKey u32Modulus), payload := [1] }],
        .inFlight [] []] part dir history held := by
  have size := length_longKey u32Modulus
  generalize longKey u32Modulus = key at size ⊢
  have valid : (RetentionPolicy.mk 1 0).validate = .ok () := rfl
  have live := CrashRun.fresh.append valid (append_first { key := some key, payload := [1] })
  obtain ⟨found, next, first, emptied⟩ := decode_oversized
    (show (Record.fromProduce { key := some key, payload := [1] } 0 .epoch).key = some key from rfl) size
  obtain ⟨part, dir, result, recovered, fetched, present⟩ := recover_first_frame first
    (show (Directory.mk [(logPath 0, _)] []).files = [(logPath 0, _)] from rfl)
  have restarted : PartitionState.append
      { segments := [Segment.holding 0 [Record.fromProduce { key := some key, payload := [1] } 0 .epoch]]
        startOffset := 0
        nextOffset := 1 } { segmentMaxRecords := 1, maxRecords := 0 } [] .epoch
      { dir := {
          files := [(logPath 0, encode
            (Record.fromProduce { key := some key, payload := [1] } 0 .epoch))]
          removed := [] }
        faults := [] } = some (.ok { records := [], truncatedTo := none }, _, _) := rfl
  have crashed := live.crash valid rfl restarted (List.Perm.refl _) recovered
  refine ⟨part, dir, crashed, ?_⟩
  rintro ⟨history, held, durable⟩
  obtain ⟨again, refetched, rfl⟩ := durable.readable
  rw [fetched] at refetched
  cases refetched
  obtain ⟨original, inHistory, rfl⟩ := durable.nothingElse found present
  obtain ⟨event, inRun, inEvent⟩ := durable.written.mem_numbered inHistory
  rcases List.mem_cons.mp inRun with rfl | last
  · rw [List.mem_singleton.mp inEvent] at emptied
    have same : key = "" := Option.some.inj emptied
    rw [same] at size
    exact absurd size (by decide)
  · rw [List.mem_singleton.mp last] at inEvent
    simp [BatchEvent.numbered] at inEvent

end OversizedKey

end ConnectForge.Infra
