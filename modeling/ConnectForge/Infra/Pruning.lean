import ConnectForge.Infra.CrashRecovery
import ConnectForge.Infra.SegmentTiles

namespace ConnectForge.Infra

open Data SegmentedLog

/-! What retention takes off a partition that lives under one policy. -/

/-- The partitions of a topic reached without I/O errors, by appends under its
policy and clean restarts, and the records they were given. -/
inductive Governed (retention : RetentionPolicy) : List Record → PartitionState → Directory → Prop where
  | fresh : Governed retention [] .fresh .empty
  | append {given part dir} {batch : List ProduceRecord} {timestamp : DateTime} {outcome after disk}
      (earlier : Governed retention given part dir) (fits : ∀ record ∈ batch, record.Fits)
      (appended : part.append retention batch timestamp { dir, faults := [] } =
        some (.ok outcome, after, disk)) : Governed retention (given ++ outcome.records) after disk.dir
  | reopen {given part dir} {listing : List String} {after later}
      (earlier : Governed retention given part dir) (listed : listing.Perm dir.names)
      (recovered : recoverPartition listing dir = .ok (after, later)) :
      Governed retention given after later

/-- Retention dropped `gone` off the head of the segments of `full`. -/
structure Pruning (retention : RetentionPolicy) (full after : PartitionState) (gone : List Segment)
    (truncatedTo : Option Nat) : Prop where
  segments : full.segments = gone ++ after.segments
  remaining : after.segments ≠ []
  shortest : PartitionState.Prunes retention.maxRecords full.segments gone.length
  start : after.startOffset = after.firstKept
  reported : truncatedTo = if gone = [] then none else some after.startOffset
  most : PartitionState.countOf after.segments ≤
    max retention.maxRecords retention.segmentMaxRecords
  least : min (PartitionState.countOf full.segments : Int)
    (retention.maxRecords - retention.segmentMaxRecords + 1) ≤ PartitionState.countOf after.segments

namespace PartitionState

variable {retention : RetentionPolicy} {part full : PartitionState} {grown later : Directory}
  {records : List Record} {count : Nat}

theorem Tiled.firstKept {size : Nat} {dir : Directory} (tiled : Tiled size part dir)
    (nonempty : part.segments ≠ []) : part.startOffset = part.firstKept := by
  obtain ⟨head, rest, shape⟩ := List.exists_cons_of_ne_nil nonempty
  have tiles := tiled.tiles
  rw [shape, List.map_cons] at tiles
  rw [PartitionState.firstKept, shape]
  exact tiles.head.symm

theorem Tiled.countOf_drop {size : Nat} {dir : Directory} (tiled : Tiled size part dir)
    (fewer : count + 1 < part.segments.length) :
    countOf (part.segments.drop count) = size + countOf (part.segments.drop (count + 1)) := by
  have here := tiled.tiles.drop (show count < (part.segments.map Segment.tile).length by
    rw [List.length_map]; omega)
  have there := tiled.tiles.drop (show count + 1 < (part.segments.map Segment.tile).length by
    rw [List.length_map]; exact fewer)
  rw [← List.map_drop] at here there
  have below := there.le
  rw [countOf_tiles here, countOf_tiles there]
  rw [Nat.succ_mul] at below ⊢
  omega

theorem Tiled.single {size : Nat} {dir : Directory} (tiled : Tiled size part dir)
    (single : part.segments.length ≤ 1) : countOf part.segments ≤ size := by
  have tiles := tiled.tiles
  rcases List.eq_nil_or_concat' part.segments with none | ⟨front, active, shape⟩
  · rw [none]
    exact Nat.zero_le size
  · rw [shape, List.length_append, List.length_singleton] at single
    rw [shape, List.map_append, List.map_singleton] at tiles
    have alone : front = [] := List.eq_nil_of_length_eq_zero (by omega)
    rw [shape, alone]
    exact tiles.ends.2.2.2

theorem AppendedBy.pruning (bounded : 0 < retention.maxRecords) (nonempty : records ≠ [])
    (appended : AppendedBy retention part full grown records count later)
    (above : part.startOffset ≤ part.nextOffset) :
    Pruning retention full (pruned retention.segmentMaxRecords count full) (full.segments.take count)
      (if count = 0 then none
        else some (pruned retention.segmentMaxRecords count full).startOffset) := by
  have tiled := appended.tiled
  have prunes := appended.prunes (by omega)
  have length : (full.segments.take count).length = count := by
    rw [List.length_take]
    have bound := appended.bound
    omega
  have filled : full.segments ≠ [] := by
    intro none
    have tiles := appended.whole.tiles
    rw [none] at tiles
    have same : full.startOffset = full.nextOffset := tiles.total
    have positive := List.length_pos_iff.mpr nonempty
    rw [appended.start, appended.next] at same
    omega
  have remaining : full.segments.drop count ≠ [] := by
    have positive := List.length_pos_iff.mpr filled
    have bound := appended.bound
    rw [← List.length_pos_iff, List.length_drop]
    omega
  refine ⟨(List.take_append_drop count _).symm, remaining, by rw [length]; exact prunes,
    tiled.firstKept remaining, ?_, ?_, ?_⟩
  · by_cases none : count = 0
    · simp [none]
    · rw [if_neg none, if_neg]
      intro empty
      rw [empty] at length
      exact none length.symm
  · rcases prunes.enough with within | single
    · exact Nat.le_trans within (Nat.le_max_left _ _)
    · exact Nat.le_trans (tiled.single single) (Nat.le_max_right _ _)
  · change _ ≤ (countOf (full.segments.drop count) : Int)
    rcases Nat.eq_zero_or_pos count with rfl | positive
    · rw [List.drop_zero]
      exact min_le_left _ _
    · -- The last segment to go was needed to be within the bound, and it was full.
      have needed := (prunes.needed (count - 1) (by omega)).1
      have fewer : count - 1 + 1 < full.segments.length := by
        have bound := appended.bound
        omega
      rw [appended.whole.countOf_drop fewer, Nat.sub_add_cancel positive] at needed
      refine le_trans (min_le_right _ _) ?_
      omega

end PartitionState

section Runs

variable {retention : RetentionPolicy} {part : PartitionState} {dir : Directory}

/-- An append on a disk without errors, seen both ways: as records cut into
chunks, and as segments of one size. -/
theorem append_governed (valid : retention.validate = .ok ()) {log : SegmentedLog}
    (stored : dir.files = log.files)
    (tiled : log.partition.Tiled retention.segmentMaxRecords dir) {batch : List ProduceRecord}
    (fits : ∀ record ∈ batch, record.Fits) {timestamp : DateTime}
    {result : Except PortError AppendOutcome} {after : PartitionState} {disk : Disk}
    (appended : log.partition.append retention batch timestamp { dir, faults := [] } =
      some (result, after, disk)) :
    ∃ (records : List Record) (full kept : SegmentedLog) (grown : Disk) (count : Nat)
        (front : List Record),
      materialize log.next timestamp batch = some records ∧
      PartitionState.appendRecords retention.segmentMaxRecords records log.partition
        { dir, faults := [] } = (.ok (), full.partition, grown) ∧
      grown.dir.files = full.files ∧
      result = .ok { records, truncatedTo := if count = 0 then none else some after.startOffset } ∧
      after = PartitionState.pruned retention.segmentMaxRecords count full.partition ∧
      after = kept.partition ∧ disk.dir.files = kept.files ∧
      full.records = front ++ kept.records ∧ kept.start = full.start + front.length ∧
      PartitionState.AppendedBy retention log.partition full.partition grown.dir records count
        disk.dir := by
  cases numbers : materialize log.next timestamp batch with
  | none =>
      have panicked : materialize log.partition.nextOffset timestamp batch = none := numbers
      simp [PartitionState.append, panicked] at appended
  | some records =>
      have positive := validate_positive valid
      obtain ⟨gone, kept, later, ok, chunked⟩ := append_quiet valid fits stored numbers
      obtain ⟨state, grown, count, last, pushed, ok', outcome⟩ := tiled.append positive
        (show materialize log.partition.nextOffset timestamp batch = some records from numbers)
      have both := Option.some.inj (ok.symm.trans ok')
      have partition : kept.partition = PartitionState.pruned retention.segmentMaxRecords count state :=
        congrArg (fun outcome => outcome.2.1) both
      have disks : later = last := congrArg (fun outcome => outcome.2.2) both
      rw [ok'] at appended
      cases appended
      obtain ⟨_, numbered, room⟩ := materialize_numbered numbers
      rcases PartitionState.appendRecords_outcome positive log numbered (materialize_fits numbers fits)
          room (show (Disk.mk dir []).dir.files = log.files from stored) with
        ⟨full, grown', pushed', start, chunks, files, _⟩ | ⟨_, _, _, _, _, _, noisy, _⟩
      · rw [pushed] at pushed'
        cases pushed'
        refine ⟨records, full, kept, grown, count, gone.flatten, rfl, pushed, files, rfl, rfl,
          partition.symm, disks ▸ chunked.files, ?_, ?_, outcome⟩
        · rw [SegmentedLog.records, chunks, chunked.chunks, List.flatten_append]
          rfl
        · rw [chunked.start, start]
      · exact absurd (Disk.Quiet.of_nil rfl) noisy

variable {given : List Record}

theorem Governed.undisturbed (valid : retention.validate = .ok ())
    (reached : Governed retention given part dir) : ∃ submitted, Undisturbed submitted given part dir := by
  induction reached with
  | fresh => exact ⟨[], .fresh⟩
  | append _ fits appended ih =>
      obtain ⟨submitted, live⟩ := ih
      exact ⟨_, live.append valid fits appended⟩
  | reopen _ listed recovered ih =>
      obtain ⟨submitted, live⟩ := ih
      exact ⟨submitted, live.reopen listed recovered⟩

theorem Governed.represents (valid : retention.validate = .ok ())
    (reached : Governed retention given part dir) :
    ∃ log : SegmentedLog, part = log.partition ∧ dir.files = log.files ∧
      part.Tiled retention.segmentMaxRecords dir := by
  induction reached with
  | fresh => exact ⟨.empty, rfl, rfl, .fresh _⟩
  | append _ fits appended ih =>
      obtain ⟨log, rfl, stored, tiled⟩ := ih
      obtain ⟨_, _, kept, _, _, _, _, _, _, _, rfl, same, files, _, _, outcome⟩ :=
        append_governed valid stored tiled fits appended
      exact ⟨kept, same, files, outcome.tiled⟩
  | reopen _ listed recovered ih =>
      obtain ⟨log, rfl, stored, tiled⟩ := ih
      have reopened := recover_torn log rfl (stored.trans (withTail_empty log.files).symm) listed
      rw [reopened] at recovered
      cases recovered
      refine ⟨log, rfl, rfl, tiled.aligned, tiled.tiles, ?_⟩
      intro segment member
      obtain ⟨named, present⟩ := tiled.files segment member
      rw [Directory.names, stored] at present
      exact ⟨named, present⟩

/-- Retention drops the shortest run of head segments that its bound asks for,
reports it, and leaves what remains as it was: a fetch finds what it found there
before, which is what the partition was given. -/
theorem pruning_exact (valid : retention.validate = .ok ()) (bounded : 0 < retention.maxRecords)
    (reached : Governed retention given part dir) {batch : List ProduceRecord} (nonempty : batch ≠ [])
    (fits : ∀ record ∈ batch, record.Fits) {timestamp : DateTime}
    {result : Except PortError AppendOutcome} {after : PartitionState} {disk : Disk}
    (appended : part.append retention batch timestamp { dir, faults := [] } =
      some (result, after, disk)) :
    ∃ outcome full grown gone, result = .ok outcome ∧
      PartitionState.appendRecords retention.segmentMaxRecords outcome.records part
        { dir, faults := [] } = (.ok (), full, grown) ∧
      Pruning retention full after gone outcome.truncatedTo ∧
      after.Serves (given ++ outcome.records) disk.dir ∧
      ∀ start max, ∃ fetched, after.fetch start max disk.dir = .ok fetched ∧
        full.fetch (Nat.max start after.startOffset) max grown.dir = .ok fetched ∧
        fetched.records.map Record.offset = List.range' (Nat.max start after.startOffset)
          (min max (after.nextOffset - Nat.max start after.startOffset)) := by
  obtain ⟨submitted, live⟩ := reached.undisturbed valid
  obtain ⟨log, rfl, stored, tiled⟩ := reached.represents valid
  obtain ⟨records, full, kept, grown, count, front, numbers, pushed, files, rfl, rfl, same, files',
    split, start, outcome⟩ := append_governed valid stored tiled fits appended
  have filled : records ≠ [] := by
    rw [← List.length_pos_iff, (materialize_numbered numbers).1]
    exact List.length_pos_iff.mpr nonempty
  refine ⟨_, full.partition, grown, _, rfl, pushed, outcome.pruning bounded filled tiled.le,
    (live.append valid fits appended).serves, ?_⟩
  intro wanted max
  rw [same]
  have trimmed : full.view.fetch (Nat.max wanted kept.start) max = kept.view.fetch wanted max := by
    have views : full.view.records = front.map Record.truncate ++ kept.view.records := by
      change full.records.map Record.truncate = _ ++ kept.records.map Record.truncate
      rw [split, List.map_append]
    have starts : kept.view.start = full.view.start + (front.map Record.truncate).length := by
      rw [List.length_map]
      exact start
    exact PartitionLog.fetch_trimmed views starts wanted max
  refine ⟨kept.view.fetch wanted max, PartitionState.fetch_partition kept files' wanted max, ?_, ?_⟩
  · rw [← trimmed]
    exact PartitionState.fetch_partition full files _ max
  · have numbered := kept.view.slice_numbered wanted max
    rw [Numbered, kept.view.length_slice, kept.view_next] at numbered
    exact numbered

end Runs

/-- Two records of which one may be kept: the first goes. -/
theorem pruning_exact_second :
    ∃ (retention : RetentionPolicy) (batch : List ProduceRecord) (outcome : AppendOutcome)
        (full after : PartitionState) (disk : Disk) (gone : List Segment),
      PartitionState.fresh.append retention batch .epoch { dir := .empty, faults := [] } =
        some (.ok outcome, after, disk) ∧
      outcome.truncatedTo = some 1 ∧ gone ≠ [] ∧
      Pruning retention full after gone outcome.truncatedTo ∧ after.Serves outcome.records disk.dir := by
  let retention : RetentionPolicy := { segmentMaxRecords := 1, maxRecords := 1 }
  let batch : List ProduceRecord := List.replicate 2 { key := none, payload := [1] }
  have fits : ∀ record ∈ batch, record.Fits := by
    intro record member
    rw [List.eq_of_mem_replicate member]
    exact .keyless (by decide)
  obtain ⟨outcome, after, disk, appended, reported⟩ : ∃ outcome after disk,
      PartitionState.fresh.append retention batch .epoch { dir := .empty, faults := [] } =
        some (.ok outcome, after, disk) ∧ outcome.truncatedTo = some 1 := ⟨_, _, _, rfl, rfl⟩
  obtain ⟨_, full, grown, gone, same, _, pruning, serves, _⟩ := pruning_exact
    (show retention.validate = .ok () from rfl) Nat.one_pos .fresh (List.cons_ne_nil _ _) fits appended
  cases same
  refine ⟨retention, batch, outcome, full, after, disk, gone, appended, reported, ?_, pruning, serves⟩
  intro none
  have nothing := pruning.reported
  rw [reported, if_pos none] at nothing
  cases nothing

section OversizedKey

theorem fetch_first {record : ProduceRecord} {found : Record} {next : Nat}
    (decoded : decode (encode (.fromProduce record 0 .epoch)) 0 = some (found, next)) :
    PartitionState.fetch {
        segments := [Segment.holding 0 [.fromProduce record 0 .epoch]]
        startOffset := 0
        nextOffset := 1 } 0 1
      { files := [(logPath 0, encode (.fromProduce record 0 .epoch))], removed := [] } =
      .ok { records := [found], nextOffset := found.offset + 1, highWatermark := 1 } := by
  have stored : Directory.read?
      { files := [(logPath 0, encode (.fromProduce record 0 .epoch))], removed := [] } (logPath 0) =
      some (encode (.fromProduce record 0 .epoch)) := List.lookup_cons_self
  have index : (Segment.holding 0 [Record.fromProduce record 0 .epoch]).index = [0] := rfl
  have frames : readFrames decode (encode (.fromProduce record 0 .epoch)) 1 0 = [found] := by
    simp only [readFrames, decoded]
  have read : (Segment.holding 0 [.fromProduce record 0 .epoch]).readFrom 0 1
      { files := [(logPath 0, encode (.fromProduce record 0 .epoch))], removed := [] } =
      .ok [found] := by
    simp [Segment.readFrom, index, stored, frames]
  have collected : PartitionState.fetchSegments 0
      { files := [(logPath 0, encode (.fromProduce record 0 .epoch))], removed := [] }
      [Segment.holding 0 [.fromProduce record 0 .epoch]] 1 = .ok [found] := by
    simp [PartitionState.fetchSegments, read]
  have effectiveFrom : Nat.max 0 0 = 0 := rfl
  simp only [PartitionState.fetch, effectiveFrom, collected]
  rfl

/-- A record whose key is too long for the framing: it is the only one of the
only segment, and a fetch does not return it. -/
theorem pruning_oversized :
    ∃ (retention : RetentionPolicy) (record : ProduceRecord) (outcome : AppendOutcome)
        (after : PartitionState) (disk : Disk),
      retention.validate = .ok () ∧ 0 < retention.maxRecords ∧
      PartitionState.fresh.append retention [record] .epoch { dir := .empty, faults := [] } =
        some (.ok outcome, after, disk) ∧
      outcome.records = [.fromProduce record 0 .epoch] ∧ outcome.truncatedTo = none ∧
      PartitionState.countOf after.segments = 1 ∧
      ¬ after.Serves outcome.records disk.dir := by
  have size := length_longKey u32Modulus
  generalize longKey u32Modulus = key at size
  obtain ⟨found, next, decoded, emptied⟩ := decode_oversized
    (show (Record.fromProduce { key := some key, payload := [1] } 0 .epoch).key = some key from rfl) size
  refine ⟨{ segmentMaxRecords := 1, maxRecords := 1 }, { key := some key, payload := [1] }, _, _, _,
    rfl, Nat.one_pos, append_first _, rfl, rfl, rfl, ?_⟩
  intro serves
  obtain ⟨fetched, found', records⟩ := serves 0 1
  cases (fetch_first decoded).symm.trans found'
  -- The record that was given has the key, the one that is fetched has none of it.
  have keys : [found.key] = [some key] := congrArg (List.map Record.key) records
  rw [emptied] at keys
  have empty : "" = key := Option.some.inj (List.cons.inj keys).1
  rw [← empty] at size
  exact absurd size (by decide)

end OversizedKey

end ConnectForge.Infra
