import ConnectForge.Data.Tiles
import ConnectForge.Infra.LogRepresentation

namespace ConnectForge.Infra

open Data

/-! The sizes of a partition's segments on a disk without errors, whatever the
records in them are. -/

def Segment.tile (segment : Segment) : Nat × Nat := (segment.base, segment.len)

theorem Directory.mem_touch {dir : Directory} {name other : String} :
    other ∈ (dir.touch name).names ↔ other ∈ dir.names ∨ other = name := by
  unfold touch
  split
  next present =>
    refine ⟨.inl, fun either => either.elim id ?_⟩
    rintro rfl
    exact present
  next absent =>
    rw [names, List.map_append, List.mem_append, List.map_singleton, List.mem_singleton]
    rfl

namespace Disk

/-- A disk without errors after an operation that deleted nothing. -/
structure Grows (disk later : Disk) : Prop where
  faults : later.faults = []
  names : ∀ name ∈ disk.dir.names, name ∈ later.dir.names

theorem Grows.refl {disk : Disk} (quiet : disk.faults = []) : disk.Grows disk :=
  ⟨quiet, fun _ member => member⟩

theorem Grows.trans {first second third : Disk} (left : first.Grows second)
    (right : second.Grows third) : first.Grows third :=
  ⟨right.faults, fun name member => right.names name (left.names name member)⟩

variable {disk : Disk}

theorem grows_appended (quiet : disk.faults = []) (name : String) (bytes : Bytes) :
    disk.Grows (disk.appended name bytes) := by
  refine ⟨afterFault_nil quiet, ?_⟩
  intro other member
  rw [appended, Directory.names_modify]
  exact member

theorem openAppend_grows (quiet : disk.faults = []) (name : String) :
    ∃ later, disk.openAppend name = (.ok (), later) ∧ disk.Grows later ∧ name ∈ later.dir.names := by
  refine ⟨{ disk.afterFault with dir := disk.dir.touch name }, ?_, ⟨afterFault_nil quiet, ?_⟩, ?_⟩
  · simp only [openAppend, nextFault_nil quiet]
  · intro other member
    exact Directory.mem_touch.mpr (.inl member)
  · exact Directory.mem_touch.mpr (.inr rfl)

theorem removeFile_ok (quiet : disk.faults = []) {name : String} (present : name ∈ disk.dir.names) :
    ∃ later, disk.removeFile name = (.ok (), later) ∧ later.faults = [] ∧
      ∀ other ∈ disk.dir.names, other ≠ name → other ∈ later.dir.names := by
  refine ⟨{ disk.afterFault with dir := disk.dir.unlink name }, ?_, afterFault_nil quiet, ?_⟩
  · simp only [removeFile, nextFault_nil quiet, present, ↓reduceIte]
  · intro other member different
    obtain ⟨file, found, rfl⟩ := List.mem_map.mp member
    exact List.mem_map.mpr ⟨file, List.mem_filter.mpr ⟨found, decide_eq_true different⟩, rfl⟩

end Disk

namespace BufWriter

variable {disk : Disk}

theorem flushBuf_grows (writer : BufWriter) (quiet : disk.faults = []) :
    ∃ after later, writer.flushBuf disk = (.ok (), after, later) ∧ disk.Grows later := by
  unfold flushBuf
  split
  · exact ⟨writer, disk, rfl, .refl quiet⟩
  · rw [Disk.write_ok (Disk.nextFault_nil quiet)]
    exact ⟨_, _, rfl, Disk.grows_appended quiet _ _⟩

theorem writeAll_grows (writer : BufWriter) (bytes : Bytes) (quiet : disk.faults = []) :
    ∃ after later, writer.writeAll bytes disk = (.ok (), after, later) ∧ disk.Grows later := by
  unfold writeAll
  split
  · exact ⟨_, disk, rfl, .refl quiet⟩
  · obtain ⟨drained, emptied, ok, grows⟩ : ∃ after later,
        (if writer.spareCapacity < bytes.length then writer.flushBuf disk
          else (.ok (), writer, disk)) = (.ok (), after, later) ∧ disk.Grows later := by
      split
      · exact writer.flushBuf_grows quiet
      · exact ⟨writer, disk, rfl, .refl quiet⟩
    rw [ok]
    dsimp only
    split
    · rw [Disk.write_ok (Disk.nextFault_nil grows.faults)]
      exact ⟨drained, _, rfl, grows.trans (Disk.grows_appended grows.faults _ _)⟩
    · exact ⟨_, emptied, rfl, grows⟩

end BufWriter

namespace Segment

variable {disk : Disk}

theorem create_tile (base : Nat) (quiet : disk.faults = []) :
    ∃ segment later, create base disk = (.ok segment, later) ∧ segment.tile = (base, 0) ∧
      segment.path = logPath base ∧ disk.Grows later ∧ segment.path ∈ later.dir.names := by
  obtain ⟨later, opened, grows, present⟩ := Disk.openAppend_grows quiet (logPath base)
  exact ⟨_, later, by rw [create, opened], rfl, rfl, grows, present⟩

theorem append_tile (segment : Segment) (record : Record) (quiet : disk.faults = []) :
    ∃ after later, segment.append record disk = (.ok (), after, later) ∧
      after.tile = (segment.base, segment.len + 1) ∧ after.path = segment.path ∧ disk.Grows later := by
  obtain ⟨writer, written, wrote, grows⟩ := segment.writer.writeAll_grows (encode record) quiet
  obtain ⟨flushed, later, flushes, more⟩ := writer.flushBuf_grows grows.faults
  refine ⟨{ segment with
    writer := flushed
    index := segment.index ++ [segment.writePos]
    writePos := segment.writePos + (encode record).length }, later, ?_, ?_, rfl, grows.trans more⟩
  · simp only [append, wrote, BufWriter.flush, flushes]
  · rw [tile, len, List.length_append]
    rfl

end Segment

namespace PartitionState

def Backed (segments : List Segment) (dir : Directory) : Prop :=
  ∀ segment ∈ segments, segment.path = logPath segment.base ∧ segment.path ∈ dir.names

/-- The segments are full but for the last, none is empty, the first starts at a
multiple of their size, and each of them has its file. -/
structure Tiled (size : Nat) (part : PartitionState) (dir : Directory) : Prop where
  aligned : size ∣ part.startOffset
  tiles : Tiles size part.startOffset (part.segments.map Segment.tile) part.nextOffset
  files : Backed part.segments dir

variable {size : Nat} {part : PartitionState} {disk : Disk}

theorem Tiled.fresh (size : Nat) : Tiled size .fresh .empty :=
  ⟨Nat.dvd_zero size, .none, List.forall_mem_nil _⟩

theorem Tiled.le {dir : Directory} (tiled : Tiled size part dir) :
    part.startOffset ≤ part.nextOffset := tiled.tiles.le

theorem appendLast_tile {front : List Segment} {active : Segment}
    (shape : part.segments = front ++ [active]) (record : Record) (quiet : disk.faults = []) :
    ∃ grown later, part.appendLast record disk = (.ok (), { part with
        segments := front ++ [grown]
        nextOffset := part.nextOffset + 1 }, later) ∧
      grown.tile = (active.base, active.len + 1) ∧ grown.path = active.path ∧ disk.Grows later := by
  obtain ⟨grown, later, appended, tile, path, grows⟩ := active.append_tile record quiet
  refine ⟨grown, later, ?_, tile, path, grows⟩
  rw [appendLast, shape, List.getLast?_append, List.getLast?_singleton, Option.some_or]
  simp only [appended, List.dropLast_concat]

theorem Tiled.extend (tiled : Tiled size part disk.dir) (quiet : disk.faults = [])
    {front : List Segment} {active : Segment} (shape : part.segments = front ++ [active])
    (short : active.len < size) (record : Record) :
    ∃ after later, (∀ rest, appendRecords size (record :: rest) part disk =
        appendRecords size rest after later) ∧
      Tiled size after later.dir ∧ later.faults = [] ∧ after.startOffset = part.startOffset ∧
      after.nextOffset = part.nextOffset + 1 := by
  obtain ⟨grown, later, appended, tile, path, grows⟩ := appendLast_tile shape record quiet
  have stays : part.mustRoll size = false := by
    rw [mustRoll, shape, List.getLast?_append, List.getLast?_singleton, Option.some_or]
    exact decide_eq_false (Nat.not_le.mpr short)
  refine ⟨{ part with segments := front ++ [grown], nextOffset := part.nextOffset + 1 }, later, ?_,
    ⟨tiled.aligned, ?_, ?_⟩, grows.faults, rfl, rfl⟩
  · intro rest
    simp only [appendRecords, roll, stays, Bool.false_eq_true, ↓reduceIte, appended]
  · have tiles := tiled.tiles
    rw [shape, List.map_append, List.map_singleton] at tiles
    rw [List.map_append, List.map_singleton, tile]
    exact tiles.extend short
  · intro segment member
    rcases List.mem_append.mp member with earlier | last
    · obtain ⟨named, present⟩ := tiled.files segment (by rw [shape]; exact List.mem_append_left _ earlier)
      exact ⟨named, grows.names _ present⟩
    · obtain ⟨named, present⟩ := tiled.files active (by rw [shape]; simp)
      rw [List.mem_singleton.mp last, path]
      have base : grown.base = active.base := congrArg Prod.fst tile
      rw [base]
      exact ⟨named, grows.names _ present⟩

theorem Tiled.open (positive : 0 < size) (tiled : Tiled size part disk.dir)
    (quiet : disk.faults = []) (rolls : part.mustRoll size = true) (record : Record) :
    ∃ after later, (∀ rest, appendRecords size (record :: rest) part disk =
        appendRecords size rest after later) ∧
      Tiled size after later.dir ∧ later.faults = [] ∧ after.startOffset = part.startOffset ∧
      after.nextOffset = part.nextOffset + 1 := by
  obtain ⟨segment, opened, created, tile, path, grows, present⟩ :=
    Segment.create_tile part.nextOffset quiet
  obtain ⟨grown, later, appended, tile', path', grows'⟩ := appendLast_tile
    (show ({ part with segments := part.segments ++ [segment] } : PartitionState).segments =
      part.segments ++ [segment] from rfl) record grows.faults
  have base : segment.base = part.nextOffset := congrArg Prod.fst tile
  have empty : segment.len = 0 := congrArg Prod.snd tile
  rw [base, empty] at tile'
  refine ⟨{ part with segments := part.segments ++ [grown], nextOffset := part.nextOffset + 1 },
    later, ?_, ⟨tiled.aligned, ?_, ?_⟩, grows'.faults, rfl, rfl⟩
  · intro rest
    simp only [appendRecords, roll, rolls, ↓reduceIte, created, appended]
  · have tiles := tiled.tiles
    rw [List.map_append, List.map_singleton, tile']
    rcases List.eq_nil_or_concat' part.segments with none | ⟨front, active, shape⟩
    · rw [none, List.map_nil] at tiles ⊢
      have same : part.startOffset = part.nextOffset := tiles.total
      rw [← same]
      exact .last Nat.one_pos positive
    · rw [mustRoll, shape, List.getLast?_append, List.getLast?_singleton, Option.some_or] at rolls
      rw [shape, List.map_append, List.map_singleton] at tiles ⊢
      -- A segment is never longer than its size, so the last one is full.
      have within := tiles.ends.2.2.2
      have full : active.len = size := Nat.le_antisymm within (of_decide_eq_true rolls)
      rw [Segment.tile, full] at tiles ⊢
      exact tiles.begin positive
  · intro other member
    rcases List.mem_append.mp member with earlier | last
    · obtain ⟨named, there⟩ := tiled.files other earlier
      exact ⟨named, grows'.names _ (grows.names _ there)⟩
    · have same : grown.base = part.nextOffset := congrArg Prod.fst tile'
      rw [List.mem_singleton.mp last, path', same]
      exact ⟨path, grows'.names _ present⟩

theorem Tiled.push (positive : 0 < size) (tiled : Tiled size part disk.dir)
    (quiet : disk.faults = []) (record : Record) :
    ∃ after later, (∀ rest, appendRecords size (record :: rest) part disk =
        appendRecords size rest after later) ∧
      Tiled size after later.dir ∧ later.faults = [] ∧ after.startOffset = part.startOffset ∧
      after.nextOffset = part.nextOffset + 1 := by
  cases rolls : part.mustRoll size with
  | true => exact tiled.open positive quiet rolls record
  | false =>
      rcases List.eq_nil_or_concat' part.segments with none | ⟨front, active, shape⟩
      · rw [mustRoll, none] at rolls
        cases rolls
      · rw [mustRoll, shape, List.getLast?_append, List.getLast?_singleton, Option.some_or] at rolls
        exact tiled.extend quiet shape (Nat.not_le.mp (of_decide_eq_false rolls)) record

theorem Tiled.appendRecords (positive : 0 < size) (records : List Record)
    (tiled : Tiled size part disk.dir) (quiet : disk.faults = []) :
    ∃ full later, appendRecords size records part disk = (.ok (), full, later) ∧
      Tiled size full later.dir ∧ later.faults = [] ∧ full.startOffset = part.startOffset ∧
      full.nextOffset = part.nextOffset + records.length := by
  induction records generalizing part disk with
  | nil => exact ⟨part, disk, rfl, tiled, quiet, rfl, rfl⟩
  | cons record rest ih =>
      obtain ⟨after, grown, unfolded, tiled', quiet', start, next⟩ := tiled.push positive quiet record
      obtain ⟨full, later, ok, tiled'', quiet'', start', next'⟩ := ih tiled' quiet'
      refine ⟨full, later, (unfolded rest).trans ok, tiled'', quiet'', start'.trans start, ?_⟩
      rw [next', next, List.length_cons]
      omega

def countOf (segments : List Segment) : Nat := (segments.map Segment.len).sum

/-- Dropping this many segments off the head is what the bound asks for: with
fewer gone there would be too many records and a segment to spare. -/
structure Prunes (maxRecords : Nat) (segments : List Segment) (count : Nat) : Prop where
  needed : ∀ fewer < count, maxRecords < countOf (segments.drop fewer) ∧
    1 < (segments.drop fewer).length
  enough : countOf (segments.drop count) ≤ maxRecords ∨ (segments.drop count).length ≤ 1

theorem countOf_tiles {start next : Nat} {segments : List Segment}
    (tiles : Tiles size start (segments.map Segment.tile) next) :
    countOf segments = next - start := by
  have total := tiles.total
  rw [List.map_map] at total
  change start + countOf segments = next at total
  omega

theorem Prunes.cons {maxRecords count : Nat} {head : Segment} {segments : List Segment}
    (exceeds : maxRecords < countOf (head :: segments)) (several : segments ≠ [])
    (prunes : Prunes maxRecords segments count) : Prunes maxRecords (head :: segments) (count + 1) := by
  refine ⟨?_, prunes.enough⟩
  intro fewer below
  cases fewer with
  | zero =>
      have positive := List.length_pos_iff.mpr several
      exact ⟨exceeds, by rw [List.drop_zero, List.length_cons]; omega⟩
  | succ fewer => exact prunes.needed fewer (Nat.lt_of_succ_lt_succ below)

structure PrunedBy (size maxRecords start next : Nat) (segments : List Segment) (pruned : Bool)
    (count : Nat) (outcome : Except PortError Bool × PartitionState × Disk) : Prop where
  result : outcome.1 = .ok (pruned || decide (count ≠ 0))
  state : outcome.2.1 = {
    segments := segments.drop count
    startOffset := start + count * size
    nextOffset := next }
  prunes : Prunes maxRecords segments count
  bound : count = 0 ∨ count < segments.length
  faults : outcome.2.2.faults = []
  files : Backed (segments.drop count) outcome.2.2.dir

theorem PrunedBy.nothing {maxRecords start next : Nat} {segments : List Segment} {pruned : Bool}
    (enough : countOf segments ≤ maxRecords ∨ segments.length ≤ 1) (files : Backed segments disk.dir)
    (quiet : disk.faults = []) :
    PrunedBy size maxRecords start next segments pruned 0
      (.ok pruned, { segments, startOffset := start, nextOffset := next }, disk) where
  result := by simp
  state := by rw [Nat.zero_mul, Nat.add_zero, List.drop_zero]
  prunes := ⟨fun fewer below => absurd below (Nat.not_lt_zero fewer), enough⟩
  bound := .inl rfl
  faults := quiet
  files := files

theorem PrunedBy.cons {maxRecords start next count : Nat} {head second : Segment}
    {rest : List Segment} {pruned : Bool} {outcome : Except PortError Bool × PartitionState × Disk}
    (exceeds : maxRecords < countOf (head :: second :: rest))
    (later : PrunedBy size maxRecords (start + size) next (second :: rest) true count outcome) :
    PrunedBy size maxRecords start next (head :: second :: rest) pruned (count + 1) outcome where
  result := later.result.trans (by simp)
  state := by
    rw [later.state, List.drop_succ_cons, Nat.succ_mul]
    congr 1
    omega
  prunes := later.prunes.cons exceeds (List.cons_ne_nil _ _)
  bound := by
    have bound := later.bound
    simp only [List.length_cons] at bound ⊢
    omega
  faults := later.faults
  files := later.files

theorem prune_tiled (positive : 0 < size) (maxRecords : Nat) {start next : Nat}
    {segments : List Segment} (pruned : Bool)
    (tiles : Tiles size start (segments.map Segment.tile) next) (files : Backed segments disk.dir)
    (quiet : disk.faults = []) :
    ∃ count, PrunedBy size maxRecords start next segments pruned count
      (prune maxRecords next segments start pruned disk) := by
  induction segments generalizing start pruned disk with
  | nil => exact ⟨0, .nothing (.inr (by simp)) files quiet⟩
  | cons head rest ih =>
      cases rest with
      | nil => exact ⟨0, .nothing (.inr (by simp)) files quiet⟩
      | cons second rest =>
          have counted := countOf_tiles tiles
          by_cases exceeds : maxRecords < next - start
          · obtain ⟨headFile, present⟩ := files head List.mem_cons_self
            obtain ⟨after, removed, quiet', others⟩ := Disk.removeFile_ok quiet present
            have below := (List.pairwise_cons.mp (tiles.ascending positive)).1
            have more : Tiles size (start + size) ((second :: rest).map Segment.tile) next := by
              cases tiles with
              | full more => exact more
            have kept : Backed (second :: rest) after.dir := by
              intro segment member
              obtain ⟨named, there⟩ := files segment (List.mem_cons_of_mem _ member)
              refine ⟨named, others _ there ?_⟩
              rw [named, headFile]
              intro same
              have above : head.base < segment.base := below segment.tile (List.mem_map_of_mem member)
              have equal := logPath_injective same
              omega
            obtain ⟨count, later⟩ := ih true more kept quiet'
            have base : second.base = start + size := more.head
            refine ⟨count + 1, .cons (by omega) ?_⟩
            simp only [prune, exceeds, ↓reduceIte, Segment.remove, removed, base]
            exact later
          · refine ⟨0, ?_⟩
            simp only [prune, exceeds, ↓reduceIte]
            exact .nothing (.inl (by omega)) files quiet

theorem Tiled.drop {dir later : Directory} {count : Nat} (tiled : Tiled size part dir)
    (bound : count = 0 ∨ count < part.segments.length)
    (files : Backed (part.segments.drop count) later) :
    Tiled size { part with
      segments := part.segments.drop count
      startOffset := part.startOffset + count * size } later := by
  refine ⟨Nat.dvd_add tiled.aligned (Nat.dvd_mul_left size count), ?_, files⟩
  rcases bound with rfl | fewer
  · rw [Nat.zero_mul, Nat.add_zero, List.drop_zero]
    exact tiled.tiles
  · rw [List.map_drop]
    exact tiled.tiles.drop (by rw [List.length_map]; exact fewer)

/-- What an append leaves: the partition with the batch at its end, `full`, with
this many segments dropped. -/
structure AppendedBy (retention : RetentionPolicy) (part full : PartitionState) (grown : Directory)
    (records : List Record) (count : Nat) (later : Directory) : Prop where
  whole : Tiled retention.segmentMaxRecords full grown
  start : full.startOffset = part.startOffset
  next : full.nextOffset = part.nextOffset + records.length
  unbounded : retention.maxRecords = 0 → count = 0
  prunes : retention.maxRecords ≠ 0 → Prunes retention.maxRecords full.segments count
  bound : count = 0 ∨ count < full.segments.length
  files : Backed (full.segments.drop count) later

def pruned (size count : Nat) (full : PartitionState) : PartitionState :=
  { full with
    segments := full.segments.drop count
    startOffset := full.startOffset + count * size }

theorem AppendedBy.tiled {retention : RetentionPolicy} {full : PartitionState} {grown later : Directory}
    {records : List Record} {count : Nat}
    (appended : AppendedBy retention part full grown records count later) :
    Tiled retention.segmentMaxRecords (pruned retention.segmentMaxRecords count full) later :=
  appended.whole.drop appended.bound appended.files

theorem applyRetention_tiled (positive : 0 < size) (maxRecords : Nat)
    (tiled : Tiled size part disk.dir) (quiet : disk.faults = []) :
    ∃ count later, part.applyRetention maxRecords disk =
        (.ok (if count = 0 then none else some (pruned size count part).startOffset),
          pruned size count part, later) ∧
      (maxRecords = 0 → count = 0) ∧ (maxRecords ≠ 0 → Prunes maxRecords part.segments count) ∧
      (count = 0 ∨ count < part.segments.length) ∧ later.faults = [] ∧
      Backed (part.segments.drop count) later.dir := by
  by_cases unbounded : maxRecords = 0
  · refine ⟨0, disk, ?_, fun _ => rfl, fun bounded => absurd unbounded bounded, .inl rfl, quiet,
      tiled.files⟩
    rw [applyRetention, if_pos unbounded, pruned, Nat.zero_mul, Nat.add_zero, List.drop_zero]
    rfl
  · obtain ⟨count, ended⟩ := prune_tiled positive maxRecords false tiled.tiles tiled.files quiet
    obtain ⟨result, state, prunes, bound, faults, files⟩ := ended
    rw [applyRetention, if_neg unbounded]
    generalize prune maxRecords part.nextOffset part.segments part.startOffset false disk = outcome at *
    obtain ⟨ended, after, later⟩ := outcome
    dsimp only at result state
    subst result state
    refine ⟨count, later, ?_, fun zero => absurd zero unbounded, fun _ => prunes, bound, faults, files⟩
    by_cases none : count = 0
    · simp [none, pruned]
    · simp [none, pruned]

/-- An append on a disk without errors succeeds, keeps the segments full and
drops what the bound asks for. -/
theorem Tiled.append {retention : RetentionPolicy} {dir : Directory}
    (positive : 0 < retention.segmentMaxRecords)
    (tiled : Tiled retention.segmentMaxRecords part dir) {batch : List ProduceRecord}
    {timestamp : DateTime} {records : List Record}
    (numbers : materialize part.nextOffset timestamp batch = some records) :
    ∃ full grown count later,
      PartitionState.appendRecords retention.segmentMaxRecords records part { dir, faults := [] } =
        (.ok (), full, grown) ∧
      part.append retention batch timestamp { dir, faults := [] } = some (.ok {
          records
          truncatedTo := if count = 0 then none
            else some (pruned retention.segmentMaxRecords count full).startOffset },
        pruned retention.segmentMaxRecords count full, later) ∧
      AppendedBy retention part full grown.dir records count later.dir := by
  obtain ⟨full, grown, ok, fullTiled, quiet, start, next⟩ :=
    Tiled.appendRecords positive records (show Tiled _ part (Disk.mk dir []).dir from tiled) rfl
  obtain ⟨count, later, retained, unbounded, prunes, bound, _, files⟩ :=
    applyRetention_tiled positive retention.maxRecords fullTiled quiet
  refine ⟨full, grown, count, later, ok, ?_, fullTiled, start, next, unbounded, prunes, bound, files⟩
  simp only [PartitionState.append, numbers, ok, retained]

end PartitionState

end ConnectForge.Infra
