import ConnectForge.Infra.SegmentedLog

namespace ConnectForge.Infra

open ConnectForge.Data

/-! What the partition operations do to the log they represent, whatever I/O
errors they meet. -/

namespace Disk

def Quiet (disk : Disk) : Prop := ∀ fault ∈ disk.faults, fault = none

/-- The same directory further along its schedule of errors, with the files
deleted so far unchanged. -/
structure Later (disk later : Disk) : Prop where
  faults : later.faults <:+ disk.faults
  removed : later.dir.removed = disk.dir.removed

theorem Later.refl (disk : Disk) : disk.Later disk := ⟨List.suffix_rfl, rfl⟩

theorem Later.trans {first second third : Disk} (left : first.Later second)
    (right : second.Later third) : first.Later third :=
  ⟨right.faults.trans left.faults, right.removed.trans left.removed⟩

theorem later_of_dir {disk : Disk} {dir : Directory} (removed : dir.removed = disk.dir.removed) :
    disk.Later { disk.afterFault with dir } :=
  ⟨List.tail_suffix disk.faults, removed⟩

theorem Quiet.later {disk later : Disk} (quiet : disk.Quiet)
    (suffix : later.faults <:+ disk.faults) : later.Quiet :=
  fun fault member => quiet fault (suffix.subset member)

theorem Quiet.clear {disk : Disk} (quiet : disk.Quiet) : disk.nextFault = none := by
  cases schedule : disk.faults with
  | nil => simp [nextFault, schedule]
  | cons fault rest =>
      have none := quiet fault (by simp [schedule])
      simp [nextFault, schedule, none]

theorem Quiet.of_nil {disk : Disk} (none : disk.faults = []) : disk.Quiet := by
  simp [Quiet, none]

theorem not_quiet {disk : Disk} {fault : Fault} (next : disk.nextFault = some fault) :
    ¬ disk.Quiet := by
  intro quiet
  rw [quiet.clear] at next
  contradiction

end Disk

namespace SegmentedLog

theorem places_concat {log : SegmentedLog} {front : List (List Record)} {active : List Record}
    (split : log.chunks = front ++ [active]) :
    log.places = placed log.start front ++ [(log.start + front.flatten.length, active)] := by
  rw [places, split, placed_append]
  rfl

theorem segments_concat {log : SegmentedLog} {front : List (List Record)} {active : List Record}
    (split : log.chunks = front ++ [active]) :
    log.partition.segments =
      (placed log.start front).map (fun place => Segment.holding place.1 place.2) ++
        [Segment.holding (log.start + front.flatten.length) active] := by
  rw [partition, places_concat split, List.map_append]
  rfl

theorem files_concat {log : SegmentedLog} {front : List (List Record)} {active : List Record}
    (split : log.chunks = front ++ [active]) :
    log.files = placedFiles (placed log.start front) ++
      [(logPath (log.start + front.flatten.length), Segment.contents active)] := by
  rw [files, places_concat split, placedFiles, List.map_append]
  rfl

theorem earlier_names {log : SegmentedLog} {front : List (List Record)} {active : List Record}
    (split : log.chunks = front ++ [active]) :
    ∀ file ∈ placedFiles (placed log.start front),
      file.1 ≠ logPath (log.start + front.flatten.length) := by
  intro file member same
  obtain ⟨place, found, rfl⟩ := List.mem_map.mp member
  have ascending := log.places_ascending
  rw [places_concat split] at ascending
  have before := (List.pairwise_append.mp ascending).2.2 place found _ (List.mem_singleton.mpr rfl)
  have equal := logPath_injective same
  omega

theorem read?_place (log : SegmentedLog) {torn : Bytes} (ended : decode torn 0 = none)
    {dir : Directory} (stored : dir.files = withTail log.files torn) {place : Nat × List Record}
    (member : place ∈ log.places) :
    ∃ tail, decode tail 0 = none ∧
      dir.read? (logPath place.1) = some (Segment.contents place.2 ++ tail) := by
  obtain ⟨before, after, split⟩ := List.append_of_mem member
  have ascending := log.places_ascending
  rw [split] at ascending
  have absent : ∀ file ∈ placedFiles before, file.1 ≠ logPath place.1 := by
    intro file earlier same
    obtain ⟨other, found, rfl⟩ := List.mem_map.mp earlier
    have smaller := (List.pairwise_append.mp ascending).2.2 other found place (by simp)
    have equal := logPath_injective same
    omega
  have shape : log.files =
      placedFiles before ++ (logPath place.1, Segment.contents place.2) :: placedFiles after := by
    rw [files, split]
    simp [placedFiles]
  rw [shape, withTail_append_cons] at stored
  cases after with
  | nil => exact ⟨torn, ended, Directory.read?_file stored absent⟩
  | cons second rest =>
      refine ⟨[], rfl, ?_⟩
      rw [List.append_nil]
      exact Directory.read?_file (stored.trans (congrArg _ (withTail_cons_cons _ _ _ torn))) absent

end SegmentedLog

namespace PartitionState

open SegmentedLog

theorem mustRoll_cases (log : SegmentedLog) {segmentMax : Nat} (positive : 0 < segmentMax) :
    (log.partition.mustRoll segmentMax = true ∧
      (log.rollOver positive).chunks = log.chunks ++ [[]]) ∨
    (log.partition.mustRoll segmentMax = false ∧ log.rollOver positive = log) := by
  rcases List.eq_nil_or_concat' log.chunks with empty | ⟨front, active, split⟩
  · left
    refine ⟨?_, ?_⟩
    · simp [mustRoll, partition, places, empty, placed]
    · simp [rollOver, rollChunks, empty]
  · have must : log.partition.mustRoll segmentMax = decide (segmentMax ≤ active.length) := by
      simp [mustRoll, segments_concat split]
    have rolled : (log.rollOver positive).chunks =
        if segmentMax ≤ active.length then log.chunks ++ [[]] else log.chunks := by
      simp [rollOver, rollChunks, split]
    by_cases full : segmentMax ≤ active.length
    · exact .inl ⟨by simpa [must] using full, by rw [rolled, if_pos full]⟩
    · refine .inr ⟨by simpa [must] using full, ?_⟩
      rw [if_neg full] at rolled
      cases log
      simp only [rollOver] at rolled ⊢
      simp only [rolled]

theorem roll_outcome (log : SegmentedLog) {segmentMax : Nat} (positive : 0 < segmentMax)
    {disk : Disk} (stored : disk.dir.files = log.files) :
    (∃ later, log.partition.roll segmentMax disk =
        (.ok (), (log.rollOver positive).partition, later) ∧
      later.dir.files = (log.rollOver positive).files ∧ disk.Later later ∧
      later.faults = if log.partition.mustRoll segmentMax then disk.faults.tail else disk.faults) ∨
    (∃ fault, disk.nextFault = some fault ∧ log.partition.mustRoll segmentMax = true ∧
      log.partition.roll segmentMax disk =
        (.error (ioErr fault.reason), log.partition, disk.afterFault)) := by
  rcases mustRoll_cases log positive with ⟨must, rolled⟩ | ⟨must, same⟩
  · cases next : disk.nextFault with
    | some fault =>
        right
        refine ⟨fault, rfl, must, ?_⟩
        simp only [roll, must, ↓reduceIte, Segment.create, Disk.openAppend, next]
    | none =>
        left
        -- The base of the new segment is above all existing ones.
        have absent : ∀ file ∈ disk.dir.files, file.1 ≠ logPath log.partition.nextOffset := by
          have names := earlier_names rolled
          rw [stored]
          exact names
        have created : (log.rollOver positive).partition =
            { log.partition with
              segments := log.partition.segments ++
                [Segment.holding log.partition.nextOffset []] } := by
          have segments := segments_concat rolled
          have nextSame := log.rollOver_next positive
          simp only [partition] at segments ⊢
          rw [segments, nextSame]
          rfl
        refine ⟨{ disk.afterFault with
            dir := { disk.dir with
              files := disk.dir.files ++ [(logPath log.partition.nextOffset, [])] } },
          ?_, ?_, Disk.later_of_dir rfl, by rw [must]; rfl⟩
        · rw [created]
          simp only [roll, must, ↓reduceIte, Segment.create, Disk.openAppend, next,
            Directory.touch_new absent]
          rfl
        · rw [files_concat rolled, stored]
          rfl
  · left
    refine ⟨disk, ?_, by rw [same]; exact stored, .refl disk, by rw [must]; rfl⟩
    simp only [roll, must, Bool.false_eq_true, ↓reduceIte, same]

/-- A failed append to the last segment leaves a prefix of the frame behind the
last file, and in the writer what is missing of a frame that was buffered. -/
theorem appendLast_fault (log : SegmentedLog) (record : Record) (nonempty : log.chunks ≠ [])
    {disk : Disk} {fault : Fault} (next : disk.nextFault = some fault)
    (stored : disk.dir.files = log.files) :
    ∃ front active later, log.chunks = front ++ [active] ∧
      log.partition.appendLast record disk =
        (.error (ioErr fault.reason),
          { log.partition with
            segments := (placed log.start front).map (fun place => Segment.holding place.1 place.2) ++
              [{ Segment.holding (log.start + front.flatten.length) active with
                writer := {
                  file := logPath (log.start + front.flatten.length)
                  buffer := if (encode record).length < BufWriter.capacity then
                    (encode record).drop fault.written else [] } }] },
          later) ∧
      later.dir.files = withTail log.files ((encode record).take fault.written) ∧ disk.Later later := by
  obtain none | ⟨front, active, split⟩ := List.eq_nil_or_concat' log.chunks
  · contradiction
  have last : log.partition.segments.getLast? =
      some (Segment.holding (log.start + front.flatten.length) active) := by
    rw [segments_concat split, List.getLast?_append, List.getLast?_singleton, Option.some_or]
  refine ⟨front, active,
    disk.appended (logPath (log.start + front.flatten.length)) ((encode record).take fault.written),
    split, ?_, ?_, Disk.later_of_dir rfl⟩
  · simp only [appendLast, last, Segment.append_holding_fault next]
    rw [segments_concat split, List.dropLast_concat]
  · rw [Disk.appended, Directory.modify_last _ (stored.trans (files_concat split))
      (earlier_names split), files_concat split, withTail_concat]

theorem appendLast_outcome (log : SegmentedLog) {record : Record} (nonempty : log.chunks ≠ [])
    (offset : record.offset = log.next) (fits : record.Fits) (room : log.next + 1 < u64Modulus)
    {disk : Disk} (stored : disk.dir.files = log.files) :
    (∃ later, log.partition.appendLast record disk =
        (.ok (), (log.extend record nonempty offset fits room).partition, later) ∧
      later.dir.files = (log.extend record nonempty offset fits room).files ∧
      disk.Later later) ∨
    (∃ fault part later, disk.nextFault = some fault ∧
      log.partition.appendLast record disk = (.error (ioErr fault.reason), part, later) ∧
      later.dir.files = withTail log.files ((encode record).take fault.written) ∧
      disk.Later later) := by
  obtain none | ⟨front, active, split⟩ := List.eq_nil_or_concat' log.chunks
  · contradiction
  have last : log.partition.segments.getLast? =
      some (Segment.holding (log.start + front.flatten.length) active) := by
    rw [segments_concat split, List.getLast?_append, List.getLast?_singleton, Option.some_or]
  have extended : (log.extend record nonempty offset fits room).chunks =
      front ++ [active ++ [record]] := by
    simp [extend, split]
  have written : ∀ bytes, disk.appended (logPath (log.start + front.flatten.length)) bytes =
      { disk.afterFault with
        dir := { disk.dir with
          files := placedFiles (placed log.start front) ++
            [(logPath (log.start + front.flatten.length), Segment.contents active ++ bytes)] } } := by
    intro bytes
    rw [Disk.appended, Directory.modify_last _ (stored.trans (files_concat split))
      (earlier_names split)]
  cases next : disk.nextFault with
  | none =>
      left
      refine ⟨disk.appended (logPath (log.start + front.flatten.length)) (encode record), ?_, ?_, ?_⟩
      · have after : (log.extend record nonempty offset fits room).partition =
            { log.partition with
              segments := log.partition.segments.dropLast ++
                [Segment.holding (log.start + front.flatten.length) (active ++ [record])]
              nextOffset := log.partition.nextOffset + 1 } := by
          have grown := extend_next log nonempty offset fits room
          rw [segments_concat split, List.dropLast_concat]
          have segments := segments_concat extended
          simp only [partition] at segments ⊢
          rw [segments, grown]
          rfl
        simp only [appendLast, last, Segment.append_holding next, after]
      · rw [written, files_concat extended, Segment.contents_append, Segment.contents_singleton]
        rfl
      · rw [written]
        exact Disk.later_of_dir rfl
  | some fault =>
      right
      obtain ⟨_, _, later, _, failed, files, after⟩ := appendLast_fault log record nonempty next stored
      exact ⟨fault, _, later, rfl, failed, files, after⟩

theorem take_ended {record : Record} (fits : record.Fits) {written : Nat}
    (short : written < (encode record).length) : decode ((encode record).take written) 0 = none :=
  decode_selfDelimiting.torn (decode_encode fits) (List.take_prefix _ _)
    (by rw [List.length_take]; omega)

theorem files_extend (log : SegmentedLog) {record : Record} (nonempty : log.chunks ≠ [])
    (offset : record.offset = log.next) (fits : record.Fits) (room : log.next + 1 < u64Modulus) :
    withTail log.files (encode record) = (log.extend record nonempty offset fits room).files := by
  obtain none | ⟨front, active, split⟩ := List.eq_nil_or_concat' log.chunks
  · contradiction
  have extended : (log.extend record nonempty offset fits room).chunks =
      front ++ [active ++ [record]] := by
    simp [extend, split]
  rw [files_concat split, files_concat extended, withTail_concat, Segment.contents_append,
    Segment.contents_singleton]
  rfl

/-- What a failed write leaves behind is a log with a torn frame at its end: the
record counts as written exactly when the whole frame got to the file. -/
theorem torn_frame (log : SegmentedLog) {record : Record} (nonempty : log.chunks ≠ [])
    (offset : record.offset = log.next) (fits : record.Fits) (room : log.next + 1 < u64Modulus)
    (written : Nat) :
    ∃ (log' : SegmentedLog) (torn : Bytes), log'.start = log.start ∧
      (log'.records = log.records ∨ log'.records = log.records ++ [record]) ∧
      decode torn 0 = none ∧
      withTail log.files ((encode record).take written) = withTail log'.files torn := by
  by_cases short : written < (encode record).length
  · exact ⟨log, (encode record).take written, rfl, .inl rfl, take_ended fits short, rfl⟩
  · refine ⟨log.extend record nonempty offset fits room, [], rfl,
      .inr (extend_records log nonempty offset fits room), rfl, ?_⟩
    rw [List.take_of_length_le (by omega), withTail_empty]
    exact files_extend log nonempty offset fits room

/-- Appending a batch either adds all of it, or stops at an I/O error with a
prefix of it in the log and possibly a torn frame behind that. -/
theorem appendRecords_outcome {segmentMax : Nat} (positive : 0 < segmentMax)
    {records : List Record} (log : SegmentedLog) (numbered : Numbered log.next records)
    (fits : ∀ record ∈ records, record.Fits)
    (room : ∀ record ∈ records, record.offset + 1 < u64Modulus) {disk : Disk}
    (stored : disk.dir.files = log.files) :
    (∃ (log' : SegmentedLog) (later : Disk),
      appendRecords segmentMax records log.partition disk = (.ok (), log'.partition, later) ∧
      log'.start = log.start ∧ log'.chunks = records.foldl (pushRecord segmentMax) log.chunks ∧
      later.dir.files = log'.files ∧ disk.Later later) ∨
    (∃ (reason : PortError) (part : PartitionState) (later : Disk) (log' : SegmentedLog)
        (torn : Bytes) (count : Nat), ¬ disk.Quiet ∧
      appendRecords segmentMax records log.partition disk = (.error reason, part, later) ∧
      log'.start = log.start ∧ log'.records = log.records ++ records.take count ∧
      decode torn 0 = none ∧ later.dir.files = withTail log'.files torn ∧ disk.Later later) := by
  induction records generalizing log disk with
  | nil => exact .inl ⟨log, disk, rfl, rfl, rfl, stored, .refl disk⟩
  | cons record rest ih =>
      obtain ⟨offset, behind⟩ := numbered_cons.mp numbered
      have recordFits := fits record (by simp)
      have recordRoom := room record (by simp)
      rcases roll_outcome log positive stored with
        ⟨rolled, rollOk, rolledFiles, rolledLater, _⟩ | ⟨fault, next, _, failed⟩
      · have rolledOffset : record.offset = (log.rollOver positive).next := by
          rw [rollOver_next]
          exact offset
        have rolledRoom : (log.rollOver positive).next + 1 < u64Modulus := by
          rw [← rolledOffset]
          exact recordRoom
        have filled : (log.rollOver positive).chunks ≠ [] := rollChunks_ne_nil segmentMax log.chunks
        rcases appendLast_outcome (log.rollOver positive) filled rolledOffset recordFits rolledRoom
            rolledFiles with
          ⟨later, appendOk, files, laterAfter⟩ | ⟨fault, part, later, next, failed, files, laterAfter⟩
        · have restNumbered :
              Numbered (log.push positive record offset recordFits recordRoom).next rest := by
            rw [push_next]
            exact behind
          have unfolded : appendRecords segmentMax (record :: rest) log.partition disk =
              appendRecords segmentMax rest
                (log.push positive record offset recordFits recordRoom).partition later := by
            rw [appendRecords, rollOk]
            simp only [appendOk]
            rfl
          rcases ih (log.push positive record offset recordFits recordRoom) restNumbered
              (fun other member => fits other (by simp [member]))
              (fun other member => room other (by simp [member])) files with
            ⟨log', last, ok, start, chunks, lastFiles, lastLater⟩ |
              ⟨reason, part, last, log', torn, count, noisy, failed, start, kept, ended, lastFiles,
                lastLater⟩
          · left
            exact ⟨log', last, unfolded.trans ok, start, chunks, lastFiles,
              (rolledLater.trans laterAfter).trans lastLater⟩
          · right
            refine ⟨reason, part, last, log', torn, count + 1, ?_, unfolded.trans failed, start,
              ?_, ended, lastFiles, (rolledLater.trans laterAfter).trans lastLater⟩
            · exact fun quiet => noisy (quiet.later (rolledLater.trans laterAfter).faults)
            · rw [kept, push_records, List.take_succ_cons, List.append_assoc, List.singleton_append]
        · right
          obtain ⟨log', torn, start, kept, ended, tail⟩ :=
            torn_frame (log.rollOver positive) filled rolledOffset recordFits rolledRoom fault.written
          have stopped : appendRecords segmentMax (record :: rest) log.partition disk =
              (.error (ioErr fault.reason), part, later) := by
            rw [appendRecords, rollOk]
            simp only [failed]
          have noisy : ¬ disk.Quiet :=
            fun quiet => Disk.not_quiet next (quiet.later rolledLater.faults)
          rw [rollOver_records] at kept
          rcases kept with kept | kept
          · exact ⟨_, part, later, log', torn, 0, noisy, stopped, start, by simp [kept], ended,
              files.trans tail, rolledLater.trans laterAfter⟩
          · exact ⟨_, part, later, log', torn, 1, noisy, stopped, start, by simp [kept], ended,
              files.trans tail, rolledLater.trans laterAfter⟩
      · right
        refine ⟨ioErr fault.reason, log.partition, disk.afterFault, log, [], 0,
          Disk.not_quiet next, ?_, rfl, by simp, rfl, ?_, ⟨List.tail_suffix disk.faults, rfl⟩⟩
        · simp only [appendRecords, failed]
        · rw [withTail_empty]
          exact stored

/-- An operation took the files of `gone` off the head of the log and stopped,
with `value` as its result or at an I/O error between two files. -/
structure Trimmed {α : Type} (log : SegmentedLog) (disk : Disk) (gone : List (List Record))
    (kept : SegmentedLog) (value : α) (outcome : Except PortError α × PartitionState × Disk) :
    Prop where
  trims : log.Trims gone kept
  files : outcome.2.2.dir.files = kept.files
  removed : outcome.2.2.dir.removed = disk.dir.removed ++ placedFiles (placed log.start gone)
  faults : outcome.2.2.faults <:+ disk.faults
  result : (outcome.1 = .ok value ∧ outcome.2.1 = kept.partition) ∨
    ((∃ reason, outcome.1 = .error reason) ∧ ¬ disk.Quiet)

theorem Trimmed.nothing {α : Type} {log : SegmentedLog} {disk : Disk} {value : α}
    (stored : disk.dir.files = log.files) :
    Trimmed log disk [] log value (.ok value, log.partition, disk) where
  trims := .refl log
  files := stored
  removed := by simp [placed, placedFiles]
  faults := List.suffix_rfl
  result := .inl ⟨rfl, rfl⟩

theorem remove_head (log : SegmentedLog) {head second : List Record} {rest : List (List Record)}
    (split : log.chunks = head :: second :: rest) {disk : Disk}
    (stored : disk.dir.files = log.files) (clear : disk.nextFault = none) :
    (Segment.holding log.start head).remove disk =
      (.ok (), { disk.afterFault with
        dir := {
          files := (log.dropHead split).files
          removed := disk.dir.removed ++ placedFiles (placed log.start [head]) } }) := by
  have shape : disk.dir.files =
      (logPath log.start, Segment.contents head) :: (log.dropHead split).files := by
    rw [stored, files, places, split]
    rfl
  have absent : ∀ file ∈ (log.dropHead split).files, file.1 ≠ logPath log.start := by
    intro file member same
    obtain ⟨place, found, rfl⟩ := List.mem_map.mp member
    have ascending := log.places_ascending
    rw [places, split] at ascending
    have above := (List.pairwise_cons.mp ascending).1 place found
    have equal := logPath_injective same
    omega
  have present : logPath log.start ∈ disk.dir.names := by
    rw [Directory.names, shape]
    simp
  simp only [Segment.remove, Segment.holding_path, Disk.removeFile, clear, present, ↓reduceIte,
    Directory.unlink_first shape absent]
  rfl

theorem prune_stays {maxRecords : Nat} (log : SegmentedLog) (pruned : Bool) (disk : Disk)
    (done : log.chunks.length ≤ 1 ∨ log.next - log.start ≤ maxRecords) :
    prune maxRecords log.next log.partition.segments log.start pruned disk =
      (.ok pruned, log.partition, disk) := by
  have state : log.partition =
      { segments := log.partition.segments, startOffset := log.start, nextOffset := log.next } := rfl
  have size : log.partition.segments.length = log.chunks.length := by
    simp [partition, places]
  conv_rhs => rw [state]
  rw [← size] at done
  match log.partition.segments, done with
  | [], _ => rfl
  | [segment], _ => rfl
  | head :: second :: rest, done =>
      have within : ¬ maxRecords < log.next - log.start := by
        simp only [List.length_cons] at done
        omega
      simp only [prune, within, ↓reduceIte]

theorem prune_step {maxRecords : Nat} (log : SegmentedLog) (pruned : Bool) (disk : Disk)
    {head second : List Record} {rest : List (List Record)}
    (split : log.chunks = head :: second :: rest) (exceeds : maxRecords < log.next - log.start) :
    prune maxRecords log.next log.partition.segments log.start pruned disk =
      match (Segment.holding log.start head).remove disk with
      | (.error reason, disk) =>
          (.error (ioErr reason),
            { segments := (log.dropHead split).partition.segments
              startOffset := log.start
              nextOffset := log.next }, disk)
      | (.ok (), disk) =>
          prune maxRecords (log.dropHead split).next (log.dropHead split).partition.segments
            (log.dropHead split).start true disk := by
  have kept : (log.dropHead split).next = log.next := ((Trims.refl _).cons split).next
  have segments : log.partition.segments =
      Segment.holding log.start head :: (log.dropHead split).partition.segments := by
    simp only [partition, places, split, placed, dropHead, List.map_cons]
  obtain ⟨more, following⟩ : ∃ more, (log.dropHead split).partition.segments =
      Segment.holding (log.start + head.length) second :: more := ⟨_, rfl⟩
  rw [segments, kept, following]
  simp only [prune, exceeds, ↓reduceIte]
  rfl

theorem prune_outcome (maxRecords : Nat) (log : SegmentedLog) (pruned : Bool) {disk : Disk}
    (stored : disk.dir.files = log.files) :
    ∃ (gone : List (List Record)) (kept : SegmentedLog),
      Trimmed log disk gone kept (pruned || !gone.isEmpty)
        (prune maxRecords log.next log.partition.segments log.start pruned disk) := by
  induction size : log.chunks.length generalizing log pruned disk with
  | zero =>
      refine ⟨[], log, ?_⟩
      rw [prune_stays log pruned disk (.inl (by omega)), List.isEmpty_nil, Bool.not_true,
        Bool.or_false]
      exact .nothing stored
  | succ count ih =>
      by_cases done : log.chunks.length ≤ 1 ∨ log.next - log.start ≤ maxRecords
      · refine ⟨[], log, ?_⟩
        rw [prune_stays log pruned disk done, List.isEmpty_nil, Bool.not_true, Bool.or_false]
        exact .nothing stored
      obtain ⟨several, exceeds⟩ := not_or.mp done
      obtain ⟨head, second, rest, split⟩ : ∃ head second rest, log.chunks = head :: second :: rest := by
        match log.chunks, several with
        | [], several => simp at several
        | [_], several => simp at several
        | head :: second :: rest, _ => exact ⟨head, second, rest, rfl⟩
      rw [prune_step log pruned disk split (Nat.not_le.mp exceeds)]
      cases next : disk.nextFault with
      | some fault =>
          refine ⟨[], log, .refl log, ?_, ?_, ?_, .inr ⟨?_, Disk.not_quiet next⟩⟩
          all_goals simp only [Segment.remove, Disk.removeFile, next]
          · exact stored
          · simp [placed, placedFiles, Disk.afterFault]
          · exact List.tail_suffix disk.faults
          · exact ⟨_, rfl⟩
      | none =>
          rw [remove_head log split stored next]
          have fewer : (log.dropHead split).chunks.length = count := by
            rw [split, List.length_cons] at size
            exact Nat.succ.inj size
          obtain ⟨gone, kept, trimmed⟩ := ih (log.dropHead split) true
            (show Directory.files (Disk.dir ⟨⟨(log.dropHead split).files,
              disk.dir.removed ++ placedFiles (placed log.start [head])⟩, disk.faults.tail⟩) =
                (log.dropHead split).files from rfl) fewer
          refine ⟨head :: gone, kept, trimmed.trims.cons split, trimmed.files, ?_,
            trimmed.faults.trans (List.tail_suffix disk.faults), ?_⟩
          · exact trimmed.removed.trans (by simp [placed, placedFiles, dropHead])
          · rcases trimmed.result with ⟨ok, state⟩ | ⟨failed, noisy⟩
            · exact .inl ⟨ok.trans (by simp), state⟩
            · exact .inr ⟨failed, fun quiet => noisy (quiet.later (List.tail_suffix disk.faults))⟩

theorem applyRetention_outcome (maxRecords : Nat) (log : SegmentedLog) {disk : Disk}
    (stored : disk.dir.files = log.files) :
    ∃ (gone : List (List Record)) (kept : SegmentedLog), (maxRecords = 0 → gone = []) ∧
      Trimmed log disk gone kept (if gone = [] then none else some kept.start)
        (log.partition.applyRetention maxRecords disk) := by
  by_cases unbounded : maxRecords = 0
  · refine ⟨[], log, fun _ => rfl, ?_⟩
    simp only [applyRetention, unbounded, ↓reduceIte]
    exact .nothing stored
  · obtain ⟨gone, kept, trimmed⟩ := prune_outcome maxRecords log false stored
    refine ⟨gone, kept, fun zero => absurd zero unbounded, ?_⟩
    have loop : prune maxRecords log.partition.nextOffset log.partition.segments
        log.partition.startOffset false disk =
          prune maxRecords log.next log.partition.segments log.start false disk := rfl
    rw [applyRetention, if_neg unbounded, loop]
    obtain ⟨trims, files, removed, faults, result⟩ := trimmed
    generalize prune maxRecords log.next log.partition.segments log.start false disk = outcome at *
    obtain ⟨ended, part, later⟩ := outcome
    rcases result with ⟨ok, state⟩ | ⟨⟨reason, failed⟩, noisy⟩
    · dsimp only at ok state
      subst ok state
      refine ⟨trims, files, removed, faults, .inl ⟨?_, rfl⟩⟩
      cases gone <;> simp [partition]
    · dsimp only at failed
      subst failed
      exact ⟨trims, files, removed, faults, .inr ⟨⟨reason, rfl⟩, noisy⟩⟩

/-- An append that returned: the batch is at the end of the log, and whole
chunks may have left its head. -/
structure Appended (segmentMax maxRecords : Nat) (log : SegmentedLog) (materialized : List Record)
    (disk : Disk) (gone : List (List Record)) (kept : SegmentedLog) (later : Disk) : Prop where
  chunks : materialized.foldl (pushRecord segmentMax) log.chunks = gone ++ kept.chunks
  start : kept.start = log.start + gone.flatten.length
  unbounded : maxRecords = 0 → gone = []
  files : later.dir.files = kept.files
  removed : later.dir.removed = disk.dir.removed ++ placedFiles (placed log.start gone)
  faults : later.faults <:+ disk.faults

/-- An append that an I/O error stopped: a prefix of the batch is at the end of
the log, with a torn frame behind it, and whole chunks may have left its head. -/
structure Interrupted (log : SegmentedLog) (materialized : List Record) (disk : Disk) (count : Nat)
    (gone : List (List Record)) (kept : SegmentedLog) (torn : Bytes) (later : Disk) : Prop where
  records : log.records ++ materialized.take count = gone.flatten ++ kept.records
  start : kept.start = log.start + gone.flatten.length
  ended : decode torn 0 = none
  files : later.dir.files = withTail kept.files torn
  removed : later.dir.removed = disk.dir.removed ++ placedFiles (placed log.start gone)

theorem append_outcome {retention : RetentionPolicy} (positive : 0 < retention.segmentMaxRecords)
    (log : SegmentedLog) {batch : List ProduceRecord} {timestamp : DateTime}
    {materialized : List Record} (numbers : materialize log.next timestamp batch = some materialized)
    (fits : ∀ record ∈ batch, record.Fits) {disk : Disk} (stored : disk.dir.files = log.files) :
    (∃ gone kept later,
      log.partition.append retention batch timestamp disk =
        some (.ok { records := materialized, truncatedTo := if gone = [] then none else some kept.start },
          kept.partition, later) ∧
      Appended retention.segmentMaxRecords retention.maxRecords log materialized disk gone kept later) ∨
    (∃ reason part count gone kept torn later, ¬ disk.Quiet ∧
      log.partition.append retention batch timestamp disk = some (.error reason, part, later) ∧
      Interrupted log materialized disk count gone kept torn later) := by
  obtain ⟨_, numbered, room⟩ := materialize_numbered numbers
  have numbersHere : materialize log.partition.nextOffset timestamp batch = some materialized := numbers
  rcases appendRecords_outcome positive log numbered (materialize_fits numbers fits) room stored with
    ⟨pushed, grown, ok, pushedStart, pushedChunks, grownFiles, grownLater⟩ |
      ⟨reason, part, later, kept, torn, count, noisy, failed, start, records, ended, files, laterAfter⟩
  · obtain ⟨gone, kept, unbounded, trimmed⟩ :=
      applyRetention_outcome retention.maxRecords pushed grownFiles
    obtain ⟨trims, files, removed, faults, result⟩ := trimmed
    have start : kept.start = log.start + gone.flatten.length := by
      rw [trims.start, pushedStart]
    rw [grownLater.removed, pushedStart] at removed
    cases outcome : pushed.partition.applyRetention retention.maxRecords grown with
    | mk ended rest =>
        obtain ⟨part, later⟩ := rest
        rw [outcome] at files removed faults result
        rcases result with ⟨value, state⟩ | ⟨⟨reason, failed⟩, noisy⟩
        · left
          dsimp only at value state
          subst value state
          refine ⟨gone, kept, later, ?_, ?_, start, unbounded, files, removed,
            faults.trans grownLater.faults⟩
          · simp only [append, numbersHere, ok, outcome]
          · rw [← trims.chunks, pushedChunks]
        · right
          dsimp only at failed
          subst failed
          refine ⟨reason, part, materialized.length, gone, kept, [], later, ?_, ?_, ?_, start, rfl, ?_,
            removed⟩
          · exact fun quiet => noisy (quiet.later grownLater.faults)
          · simp only [append, numbersHere, ok, outcome]
          · rw [List.take_length, ← trims.records, records, records, pushedChunks,
              flatten_foldl_pushRecord]
          · rw [withTail_empty]
            exact files
  · right
    refine ⟨reason, part, count, [], kept, torn, later, noisy, ?_, ?_, ?_, ended, files, ?_⟩
    · simp only [append, numbersHere, failed]
    · rw [List.flatten_nil, List.nil_append]
      exact records.symm
    · simpa using start
    · rw [laterAfter.removed]
      simp [placed, placedFiles]

theorem fetchSegments_placed {dir : Directory} (effectiveFrom : Nat) (chunks : List (List Record))
    (base remaining : Nat)
    (readable : ∀ place ∈ placed base chunks, (∀ record ∈ place.2, record.Fits) ∧
      ∃ tail, decode tail 0 = none ∧
        dir.read? (logPath place.1) = some (Segment.contents place.2 ++ tail)) :
    fetchSegments effectiveFrom dir
        ((placed base chunks).map fun place => Segment.holding place.1 place.2) remaining =
      .ok (((chunks.flatten.drop (effectiveFrom - base)).take remaining).map Record.truncate) := by
  induction chunks generalizing base remaining with
  | nil => simp [placed, fetchSegments]
  | cons chunk rest ih =>
      obtain ⟨firstFits, tail, ended, first⟩ := readable (base, chunk) (by simp [placed])
      have others := ih (base + chunk.length)
      simp only [placed, List.map_cons, fetchSegments, Segment.holding_base, Segment.holding_len]
      split
      · rename_i done
        simp [done]
      · split
        · rename_i beyond
          have passed : chunk.drop (effectiveFrom - base) = [] :=
            List.drop_eq_nil_of_le (by omega)
          rw [others remaining (fun place member => readable place (by simp [placed, member])),
            List.flatten_cons, List.drop_append, passed, List.nil_append, Nat.sub_sub]
        · rename_i within
          have here : effectiveFrom - (base + chunk.length) = 0 := by omega
          have skipped : effectiveFrom - base - chunk.length = 0 := by omega
          rw [Segment.readFrom_torn firstFits ended first]
          simp only [List.length_map, List.length_take]
          rw [others _ (fun place member => readable place (by simp [placed, member])),
            List.flatten_cons, List.drop_append, here, skipped, List.take_append, List.map_append]
          simp only [List.drop_zero, List.length_drop]
          congr 4
          omega

/-- A fetch returns the retained records from the requested offset on, as many
as were asked for, whatever is torn behind them. -/
theorem fetch_torn (log : SegmentedLog) {torn : Bytes} (ended : decode torn 0 = none)
    {dir : Directory} (stored : dir.files = withTail log.files torn) (start max : Nat) :
    log.partition.fetch start max dir = .ok (log.view.fetch start max) := by
  have found := fetchSegments_placed (Nat.max start log.start) log.chunks log.start max
    fun place member => ⟨log.place_fits member, log.read?_place ended stored member⟩
  have segments : log.partition.segments =
      (placed log.start log.chunks).map fun place => Segment.holding place.1 place.2 := rfl
  have startOffset : log.partition.startOffset = log.start := rfl
  have slice : log.view.slice start max = ((log.records.drop
      (Nat.max start log.start - log.start)).take max).map Record.truncate := by
    rw [PartitionLog.slice, List.map_take, List.map_drop]
    rfl
  simp only [fetch, startOffset, segments, found, PartitionLog.fetch, slice, log.view_next]
  rfl

theorem fetch_partition (log : SegmentedLog) {dir : Directory} (stored : dir.files = log.files)
    (start max : Nat) : log.partition.fetch start max dir = .ok (log.view.fetch start max) :=
  fetch_torn log rfl (stored.trans (withTail_empty log.files).symm) start max

end PartitionState

end ConnectForge.Infra
