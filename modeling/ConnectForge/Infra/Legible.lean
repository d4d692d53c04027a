import ConnectForge.Infra.Recovery
import ConnectForge.Infra.SegmentScan

namespace ConnectForge.Infra

open Data

/-! Partitions in which a frame can be read for every offset they count,
whatever the records were and however often they were reopened. -/

namespace Segment

/-- A segment with nothing left to flush, over a file in which a frame is found
at each indexed position. -/
structure Legible (segment : Segment) (data : Bytes) : Prop where
  path : segment.path = logPath segment.base
  flushed : segment.writer = .new segment.path
  whole : segment.writePos = data.length
  first : data ≠ [] → ∃ frame, decode data 0 = some frame
  frames : ∀ position ∈ segment.index, ∃ frame, decode data position = some frame

def extended (segment : Segment) (record : Record) : Segment :=
  { segment with
    index := segment.index ++ [segment.writePos]
    writePos := segment.writePos + (encode record).length }

variable {segment : Segment} {data : Bytes}

theorem Legible.extended (legible : segment.Legible data) (record : Record) :
    (segment.extended record).Legible (data ++ encode record) := by
  have behind : ∃ frame, decode (data ++ encode record) data.length = some frame := by
    obtain ⟨found, next, decoded⟩ := decode_frame record
    have shifted := decode_selfDelimiting.shift data (encode record) 0
    rw [Nat.add_zero, decoded] at shifted
    exact ⟨_, shifted⟩
  have kept : ∀ {position}, (∃ frame, decode data position = some frame) →
      ∃ frame, decode (data ++ encode record) position = some frame := by
    rintro position ⟨frame, found⟩
    exact ⟨frame, decode_selfDelimiting.extend _ found⟩
  refine ⟨legible.path, legible.flushed, ?_, ?_, ?_⟩
  · rw [List.length_append, ← legible.whole]
    rfl
  · intro _
    by_cases empty : data = []
    · subst empty
      exact behind
    · exact kept (legible.first empty)
  · intro position member
    rcases List.mem_append.mp member with old | new
    · exact kept (legible.frames position old)
    · rw [List.mem_singleton.mp new, legible.whole]
      exact behind

theorem Legible.readFrom {dir : Directory} (legible : segment.Legible data)
    (stored : dir.read? segment.path = some data) (filled : segment.index ≠ []) {start remaining : Nat}
    (before : start < segment.base + segment.len) (wanted : remaining ≠ 0) :
    ∃ found, segment.readFrom start remaining dir = .ok found ∧ found ≠ [] := by
  have inside : start - segment.base < segment.index.length := by
    have positive := List.length_pos_iff.mpr filled
    rw [len] at before
    omega
  obtain ⟨position, here⟩ : ∃ position, segment.index[start - segment.base]? = some position :=
    ⟨_, List.getElem?_eq_getElem inside⟩
  obtain ⟨frame, found⟩ := legible.frames position (List.mem_of_getElem? here)
  obtain ⟨next, decoded⟩ := decode_selfDelimiting.found_drop found
  obtain ⟨more, rfl⟩ := Nat.exists_eq_succ_of_ne_zero wanted
  refine ⟨frame.1 :: readFrames decode (data.drop position) more next, ?_, List.cons_ne_nil _ _⟩
  have something : ¬ (more.succ = 0 ∨ segment.index.isEmpty) := by simpa using filled
  have early : ¬ segment.base + segment.index.length ≤ start := Nat.not_le.mpr before
  rw [Segment.readFrom, if_neg something, if_neg early, here, stored]
  simp only [Option.getD_some, readFrames, decoded]

theorem open_legible {base : Nat} {dir : Directory} (stored : dir.read? (logPath base) = some data)
    (first : ∃ frame, decode data 0 = some frame) :
    ∃ segment later, Segment.open base dir = .ok (segment, later) ∧ segment.base = base ∧
      segment.index ≠ [] ∧ later.names = dir.names ∧
      (∀ other, other ≠ logPath base → later.read? other = dir.read? other) ∧
      ∃ kept, later.read? (logPath base) = some kept ∧ segment.Legible kept := by
  obtain ⟨frames, final, complete⟩ : ∃ frames final, Frames decode data 0 frames final :=
    ⟨_, _, decode_selfDelimiting.scan_frames (show data.length < data.length + 1 + 0 by omega)⟩
  have inside := complete.final_le decode_selfDelimiting (Nat.zero_le _)
  have again : Frames decode (data.take final) 0 frames final :=
    complete.cut decode_selfDelimiting decode_take
  obtain ⟨frame, found⟩ := first
  obtain ⟨front, rest, rfl⟩ : ∃ front rest, frames = front :: rest := by
    cases complete with
    | stop ended => cases ended.symm.trans found
    | frame found later => exact ⟨_, _, rfl⟩
  refine ⟨_, _, open_frames complete stored, rfl, List.cons_ne_nil _ _, ?_, ?_, data.take final, ?_,
    rfl, rfl, (List.length_take_of_le inside).symm, ?_, again.found⟩
  · split
    · exact Directory.names_modify _ _ _
    · rfl
  · intro other different
    split
    · exact Directory.read?_modify_ne different _
    · rfl
  · split
    · rw [Directory.read?_modify, stored]
      rfl
    · rw [stored, List.take_of_length_le (by omega)]
  · intro _
    cases again with
    | frame found later => exact ⟨_, found⟩

end Segment

/-- Segments in the order of their bases, each with its file, and no other
files. -/
structure Held (segments : List Segment) (dir : Directory) : Prop where
  names : dir.names = segments.map Segment.path
  files : ∀ segment ∈ segments, ∃ data, dir.read? segment.path = some data ∧ segment.Legible data
  ascending : segments.Pairwise fun left right => left.base < right.base
  bounded : ∀ segment ∈ segments, segment.base < u64Modulus

namespace Held

variable {segments front rest : List Segment} {head active : Segment} {dir : Directory}

theorem empty : Held [] .empty := ⟨rfl, List.forall_mem_nil _, .nil, List.forall_mem_nil _⟩

theorem path (held : Held segments dir) {segment : Segment} (member : segment ∈ segments) :
    segment.path = logPath segment.base := by
  obtain ⟨_, _, legible⟩ := held.files segment member
  exact legible.path

theorem flushed (held : Held segments dir) {segment : Segment} (member : segment ∈ segments) :
    segment.writer = .new segment.path := by
  obtain ⟨_, _, legible⟩ := held.files segment member
  exact legible.flushed

theorem path_ne (held : Held segments dir) {left right : Segment} (first : left ∈ segments)
    (second : right ∈ segments) (below : left.base < right.base) : left.path ≠ right.path := by
  rw [held.path first, held.path second]
  intro same
  have equal := logPath_injective same
  omega

theorem create (held : Held segments dir) {base : Nat} (above : ∀ segment ∈ segments, segment.base < base)
    (bound : base < u64Modulus) :
    Held (segments ++ [.holding base []]) (dir.touch (logPath base)) := by
  have different : ∀ segment ∈ segments, segment.path ≠ logPath base := by
    intro segment member same
    rw [held.path member] at same
    have equal := logPath_injective same
    have below := above segment member
    omega
  have absent : logPath base ∉ dir.names := by
    rw [held.names]
    intro member
    obtain ⟨segment, inside, same⟩ := List.mem_map.mp member
    exact different segment inside same
  refine ⟨?_, ?_, ?_, ?_⟩
  · rw [Directory.names_touch absent, held.names, List.map_append]
    rfl
  · intro segment member
    rcases List.mem_append.mp member with old | new
    · rw [Directory.read?_touch_ne (different segment old)]
      exact held.files segment old
    · rw [List.mem_singleton.mp new]
      exact ⟨[], Directory.read?_touch absent, rfl, rfl, rfl, fun filled => absurd rfl filled,
        List.forall_mem_nil _⟩
  · refine List.pairwise_append.mpr ⟨held.ascending, List.pairwise_singleton _ _, ?_⟩
    intro segment member other last
    rw [List.mem_singleton.mp last]
    exact above segment member
  · intro segment member
    rcases List.mem_append.mp member with old | new
    · exact held.bounded segment old
    · rw [List.mem_singleton.mp new]
      exact bound

theorem extend (held : Held (front ++ [active]) dir) (record : Record) :
    Held (front ++ [active.extended record]) (dir.modify active.path (· ++ encode record)) := by
  have last : active ∈ front ++ [active] := List.mem_append_right _ (List.mem_singleton_self active)
  obtain ⟨sorted, _, below⟩ := List.pairwise_append.mp held.ascending
  refine ⟨?_, ?_, ?_, ?_⟩
  · rw [Directory.names_modify, held.names, List.map_append, List.map_append]
    rfl
  · intro segment member
    rcases List.mem_append.mp member with old | new
    · have different := held.path_ne (List.mem_append_left _ old) last
        (below segment old active (List.mem_singleton_self active))
      rw [Directory.read?_modify_ne different]
      exact held.files segment (List.mem_append_left _ old)
    · obtain ⟨data, stored, legible⟩ := held.files active last
      rw [List.mem_singleton.mp new]
      refine ⟨data ++ encode record, ?_, legible.extended record⟩
      exact (Directory.read?_modify _ _ _).trans (congrArg (Option.map _) stored)
  · refine List.pairwise_append.mpr ⟨sorted, List.pairwise_singleton _ _, ?_⟩
    intro segment member other same
    rw [List.mem_singleton.mp same]
    exact below segment member active (List.mem_singleton_self active)
  · intro segment member
    rcases List.mem_append.mp member with old | new
    · exact held.bounded segment (List.mem_append_left _ old)
    · rw [List.mem_singleton.mp new]
      exact held.bounded active last

theorem tail (held : Held (head :: rest) dir) : Held rest (dir.unlink head.path) := by
  obtain ⟨below, sorted⟩ := List.pairwise_cons.mp held.ascending
  have different : ∀ segment ∈ rest, segment.path ≠ head.path := fun segment member =>
    (held.path_ne List.mem_cons_self (List.mem_cons_of_mem _ member) (below segment member)).symm
  refine ⟨?_, ?_, sorted, fun segment member => held.bounded segment (List.mem_cons_of_mem _ member)⟩
  · rw [Directory.names_unlink, held.names, List.map_cons, List.filter_cons_of_neg (by simp)]
    refine List.filter_eq_self.mpr ?_
    intro name member
    obtain ⟨segment, inside, rfl⟩ := List.mem_map.mp member
    exact decide_eq_true (different segment inside)
  · intro segment member
    rw [Directory.read?_unlink_ne (different segment member)]
    exact held.files segment (List.mem_cons_of_mem _ member)

end Held

namespace PartitionState

/-- A partition whose segments are never empty, and which counts its offsets from
the first base to the end of the last segment. -/
structure Legible (part : PartitionState) (dir : Directory) : Prop where
  held : Held part.segments dir
  filled : ∀ segment ∈ part.segments, segment.index ≠ []
  start : part.startOffset = part.segments.head?.elim 0 Segment.base
  next : part.nextOffset = part.segments.getLast?.elim 0 fun segment => segment.base + segment.len

variable {part : PartitionState} {disk : Disk} {dir : Directory}

theorem Legible.fresh : PartitionState.fresh.Legible .empty :=
  ⟨.empty, List.forall_mem_nil _, rfl, rfl⟩

theorem Legible.below (legible : part.Legible dir) :
    ∀ segment ∈ part.segments, segment.base < part.nextOffset := by
  rcases List.eq_nil_or_concat' part.segments with none | ⟨front, active, shape⟩
  · rw [none]
    exact List.forall_mem_nil _
  · have next := legible.next
    have filled := legible.filled active (by rw [shape]; simp)
    have ascending := legible.held.ascending
    have positive : 0 < active.len := List.length_pos_iff.mpr filled
    rw [shape, List.getLast?_append, List.getLast?_singleton, Option.some_or, Option.elim_some] at next
    rw [shape] at ascending ⊢
    intro segment member
    rcases List.mem_append.mp member with earlier | last
    · have under := (List.pairwise_append.mp ascending).2.2 segment earlier active
        (List.mem_singleton_self active)
      omega
    · rw [List.mem_singleton.mp last]
      omega

/-- A partition whose last segment may be empty, as long as a record is on its
way. -/
structure Rolled (part : PartitionState) (front : List Segment) (active : Segment)
    (dir : Directory) : Prop where
  held : Held (front ++ [active]) dir
  filled : ∀ segment ∈ front, segment.index ≠ []
  start : part.startOffset = (front ++ [active]).head?.elim 0 Segment.base
  next : active.base + active.len = part.nextOffset

theorem Legible.roll (size : Nat) (legible : part.Legible disk.dir) (quiet : disk.faults = [])
    (room : part.nextOffset < u64Modulus) :
    ∃ front active later, part.roll size disk = (.ok (), { part with segments := front ++ [active] }, later) ∧
      part.Rolled front active later.dir ∧ later.faults = [] := by
  cases rolls : part.mustRoll size with
  | true =>
      refine ⟨part.segments, .holding part.nextOffset [],
        { disk.afterFault with dir := disk.dir.touch (logPath part.nextOffset) }, ?_,
        ⟨legible.held.create legible.below room, legible.filled, ?_, rfl⟩, Disk.afterFault_nil quiet⟩
      · simp only [PartitionState.roll, rolls, ↓reduceIte, Segment.create, Disk.openAppend,
          Disk.nextFault_nil quiet]
        rfl
      · have start := legible.start
        have next := legible.next
        cases shape : part.segments with
        | nil =>
            rw [shape] at start next
            exact start.trans next.symm
        | cons head rest =>
            rw [shape] at start
            exact start
  | false =>
      rcases List.eq_nil_or_concat' part.segments with none | ⟨front, active, shape⟩
      · rw [mustRoll, none] at rolls
        cases rolls
      · obtain ⟨held, filled, start, next⟩ := legible
        rw [shape] at held filled start next
        rw [List.getLast?_append, List.getLast?_singleton, Option.some_or, Option.elim_some] at next
        refine ⟨front, active, disk, ?_, ⟨held, ?_, start, next.symm⟩, quiet⟩
        · simp only [PartitionState.roll, rolls, Bool.false_eq_true, ↓reduceIte, ← shape]
        · exact fun segment member => filled segment (List.mem_append_left _ member)

theorem Rolled.appendLast {front : List Segment} {active : Segment}
    (rolled : part.Rolled front active disk.dir) (quiet : disk.faults = []) (record : Record) :
    ∃ after later, ({ part with segments := front ++ [active] } : PartitionState).appendLast record disk =
        (.ok (), after, later) ∧
      after.Legible later.dir ∧ after.nextOffset = part.nextOffset + 1 ∧ later.faults = [] := by
  obtain ⟨data, stored, legible⟩ := rolled.held.files active (by simp)
  have appended := Segment.append_flushed (Disk.nextFault_nil quiet) legible.flushed record
  refine ⟨{ part with
      segments := front ++ [active.extended record]
      nextOffset := part.nextOffset + 1 }, disk.appended active.path (encode record), ?_,
    ⟨rolled.held.extend record, ?_, ?_, ?_⟩, rfl, Disk.afterFault_nil quiet⟩
  · rw [PartitionState.appendLast, List.getLast?_append, List.getLast?_singleton, Option.some_or]
    simp only [appended, List.dropLast_concat]
    rfl
  · intro segment member
    rcases List.mem_append.mp member with earlier | last
    · exact rolled.filled segment earlier
    · rw [List.mem_singleton.mp last]
      exact List.append_ne_nil_of_right_ne_nil _ (List.cons_ne_nil _ _)
  · have start := rolled.start
    cases front with
    | nil => exact start
    | cons head rest => exact start
  · rw [List.getLast?_append, List.getLast?_singleton, Option.some_or, Option.elim_some, ← rolled.next]
    change _ = active.base + (active.index ++ [active.writePos]).length
    rw [List.length_append]
    rfl

theorem Legible.appendRecords (size : Nat) {records : List Record} (legible : part.Legible disk.dir)
    (quiet : disk.faults = []) (numbered : Numbered part.nextOffset records)
    (room : ∀ record ∈ records, record.offset + 1 < u64Modulus) :
    ∃ full later, appendRecords size records part disk = (.ok (), full, later) ∧
      full.Legible later.dir ∧ later.faults = [] := by
  induction records generalizing part disk with
  | nil => exact ⟨part, disk, rfl, legible, quiet⟩
  | cons record rest ih =>
      obtain ⟨here, behind⟩ := numbered_cons.mp numbered
      have within := room record List.mem_cons_self
      obtain ⟨front, active, opened, rolled, shape, calm⟩ :=
        legible.roll size quiet (show part.nextOffset < u64Modulus by omega)
      obtain ⟨after, grown, appended, legible', next, calm'⟩ := shape.appendLast calm record
      rw [← next] at behind
      obtain ⟨full, later, ok, rest⟩ := ih legible' calm' behind
        fun other member => room other (List.mem_cons_of_mem _ member)
      refine ⟨full, later, ?_, rest⟩
      simp only [PartitionState.appendRecords, rolled, appended, ok]

theorem Legible.prune (maxRecords : Nat) {next start : Nat} {segments : List Segment} (pruned : Bool)
    (legible : Legible { segments, startOffset := start, nextOffset := next } disk.dir)
    (quiet : disk.faults = []) :
    ∃ flag after later, prune maxRecords next segments start pruned disk = (.ok flag, after, later) ∧
      after.Legible later.dir := by
  induction segments generalizing start pruned disk with
  | nil => exact ⟨pruned, _, disk, rfl, legible⟩
  | cons head rest ih =>
      cases rest with
      | nil => exact ⟨pruned, _, disk, rfl, legible⟩
      | cons second rest =>
          by_cases exceeds : maxRecords < next - start
          · have present : head.path ∈ disk.dir.names := by
              rw [legible.held.names]
              exact List.mem_cons_self
            have removed : disk.removeFile head.path =
                (.ok (), { disk.afterFault with dir := disk.dir.unlink head.path }) := by
              simp only [Disk.removeFile, Disk.nextFault_nil quiet, present, ↓reduceIte]
            have kept : Legible { segments := second :: rest, startOffset := second.base, nextOffset := next }
                (disk.dir.unlink head.path) := by
              refine ⟨legible.held.tail, ?_, rfl, ?_⟩
              · exact fun segment member => legible.filled segment (List.mem_cons_of_mem _ member)
              · have last := legible.next
                rw [List.getLast?_cons_cons] at last
                exact last
            obtain ⟨flag, after, later, ok, legible'⟩ := ih true
              (show Legible _ ({ disk.afterFault with dir := disk.dir.unlink head.path } : Disk).dir from kept)
              (Disk.afterFault_nil quiet)
            refine ⟨flag, after, later, ?_, legible'⟩
            simp only [PartitionState.prune, exceeds, ↓reduceIte, Segment.remove, removed, ok]
          · refine ⟨pruned, _, disk, ?_, legible⟩
            simp only [PartitionState.prune, exceeds, ↓reduceIte]

theorem Legible.append {retention : RetentionPolicy} {batch : List ProduceRecord}
    {timestamp : DateTime} {result : Except PortError AppendOutcome} {after : PartitionState}
    (legible : part.Legible dir)
    (appended : part.append retention batch timestamp { dir, faults := [] } = some (result, after, disk)) :
    after.Legible disk.dir := by
  cases numbers : materialize part.nextOffset timestamp batch with
  | none => simp [PartitionState.append, numbers] at appended
  | some records =>
      obtain ⟨_, numbered, room⟩ := materialize_numbered numbers
      obtain ⟨full, grown, ok, legible', quiet⟩ := Legible.appendRecords
        retention.segmentMaxRecords (show part.Legible (Disk.mk dir []).dir from legible) rfl numbered room
      simp only [PartitionState.append, numbers, ok, applyRetention] at appended
      by_cases unbounded : retention.maxRecords = 0
      · simp only [unbounded, ↓reduceIte] at appended
        cases appended
        exact legible'
      · obtain ⟨flag, kept, later, pruned, legible''⟩ := Legible.prune
          retention.maxRecords false legible' quiet
        simp only [unbounded, ↓reduceIte, pruned] at appended
        cases appended
        exact legible''

theorem fetchSegments_found {segments : List Segment} {start remaining : Nat} {records : List Record}
    (files : ∀ segment ∈ segments, segment.index ≠ [] ∧
      ∃ data, dir.read? segment.path = some data ∧ segment.Legible data)
    (ahead : ∃ segment ∈ segments, start < segment.base + segment.len) (wanted : remaining ≠ 0)
    (fetched : fetchSegments start dir segments remaining = .ok records) : records ≠ [] := by
  induction segments with
  | nil =>
      obtain ⟨_, member, _⟩ := ahead
      cases member
  | cons head rest ih =>
      unfold fetchSegments at fetched
      rw [if_neg wanted] at fetched
      split at fetched
      next passed =>
        obtain ⟨segment, member, later⟩ := ahead
        rcases List.mem_cons.mp member with rfl | inRest
        · omega
        · exact ih (fun other inside => files other (List.mem_cons_of_mem _ inside))
            ⟨segment, inRest, later⟩ fetched
      next reached =>
        obtain ⟨filled, data, stored, legible⟩ := files head List.mem_cons_self
        obtain ⟨found, read, nonempty⟩ := legible.readFrom stored filled (Nat.not_le.mp reached) wanted
        simp only [read] at fetched
        split at fetched
        · cases fetched
        · cases fetched
          exact List.append_ne_nil_of_left_ne_nil nonempty _

theorem Legible.fetch {start max : Nat} {result : FetchResult} (legible : part.Legible dir)
    (wanted : 1 ≤ max) (fetched : part.fetch start max dir = .ok result) (empty : result.records = []) :
    part.nextOffset ≤ start := by
  unfold PartitionState.fetch at fetched
  dsimp only at fetched
  split at fetched
  · cases fetched
  next records found =>
    cases fetched
    refine Nat.not_lt.mp fun behind => ?_
    rcases List.eq_nil_or_concat' part.segments with none | ⟨front, active, shape⟩
    · have next := legible.next
      rw [none] at next
      change part.nextOffset = 0 at next
      omega
    · -- The last segment ends at the offset of the next record.
      have next := legible.next
      rw [shape, List.getLast?_append, List.getLast?_singleton, Option.some_or, Option.elim_some] at next
      have first : part.startOffset < part.nextOffset := by
        have start := legible.start
        have below := legible.below
        rw [shape] at start below
        cases front with
        | nil => exact start ▸ below _ List.mem_cons_self
        | cons head rest => exact start ▸ below _ List.mem_cons_self
      refine fetchSegments_found ?_ ⟨active, by rw [shape]; simp, ?_⟩ (by omega) found empty
      · exact fun segment member => ⟨legible.filled segment member, legible.held.files segment member⟩
      · rw [← next]
        exact Nat.max_lt.mpr ⟨behind, first⟩

end PartitionState

theorem openSegments_legible {bases : List Nat} {dir : Directory} (ascending : bases.Pairwise (· < ·))
    (files : ∀ base ∈ bases, ∃ data, dir.read? (logPath base) = some data ∧
      ∃ frame, decode data 0 = some frame) :
    ∃ segments later, openSegments bases dir = .ok (segments, later) ∧
      segments.map Segment.base = bases ∧ later.names = dir.names ∧
      (∀ other, (∀ base ∈ bases, other ≠ logPath base) → later.read? other = dir.read? other) ∧
      ∀ segment ∈ segments, segment.index ≠ [] ∧
        ∃ data, later.read? segment.path = some data ∧ segment.Legible data := by
  induction bases generalizing dir with
  | nil => exact ⟨[], dir, rfl, rfl, rfl, fun _ _ => rfl, List.forall_mem_nil _⟩
  | cons base rest ih =>
      obtain ⟨below, sorted⟩ := List.pairwise_cons.mp ascending
      have different : ∀ other ∈ rest, logPath base ≠ logPath other := by
        intro other member same
        have equal := logPath_injective same
        have above := below other member
        omega
      obtain ⟨data, stored, first⟩ := files base List.mem_cons_self
      obtain ⟨segment, opened, ok, here, filled, names, others, kept, left, legible⟩ :=
        Segment.open_legible stored first
      obtain ⟨segments, later, ok', bases', names', others', files'⟩ := ih sorted (by
        intro other member
        rw [others _ (different other member).symm]
        exact files other (List.mem_cons_of_mem _ member))
      refine ⟨segment :: segments, later, ?_, ?_, names'.trans names, ?_, ?_⟩
      · simp only [openSegments, ok, ok']
      · rw [List.map_cons, here, bases']
      · intro other apart
        obtain ⟨first, rest⟩ := List.forall_mem_cons.mp apart
        rw [others' other rest, others other first]
      · refine List.forall_mem_cons.mpr ⟨⟨filled, kept, ?_, legible⟩, files'⟩
        rw [legible.path, here, others' _ different, left]

/-- A reopened partition is as legible as before, though it may count other
records. -/
theorem PartitionState.Legible.reopened {part after : PartitionState} {dir later : Directory}
    (legible : part.Legible dir) {listing : List String} (listed : listing.Perm dir.names)
    (recovered : recoverPartition listing dir = .ok (after, later)) : after.Legible later := by
  have held := legible.held
  have paths : part.segments.map Segment.path = (part.segments.map Segment.base).map logPath := by
    rw [List.map_map]
    exact List.map_congr_left fun segment member => held.path member
  have ascending : (part.segments.map Segment.base).Pairwise (· < ·) :=
    List.pairwise_map.mpr held.ascending
  have bounded : ∀ base ∈ part.segments.map Segment.base, base < u64Modulus := by
    intro base member
    obtain ⟨segment, inside, rfl⟩ := List.mem_map.mp member
    exact held.bounded segment inside
  rw [held.names, paths] at listed
  obtain ⟨segments, opened, ok, bases, names, _, files⟩ := openSegments_legible ascending (by
    intro base member
    obtain ⟨segment, inside, rfl⟩ := List.mem_map.mp member
    obtain ⟨data, stored, whole⟩ := held.files segment inside
    rw [whole.path] at stored
    refine ⟨data, stored, whole.first ?_⟩
    -- An indexed position lies inside the file.
    rintro rfl
    obtain ⟨position, indexed⟩ := List.exists_mem_of_ne_nil _ (legible.filled segment inside)
    obtain ⟨frame, found⟩ := whole.frames position indexed
    have bounds := decode_selfDelimiting.bounds found
    rw [List.length_nil] at bounds
    omega)
  simp only [recoverPartition, mergeSort_bases ascending bounded listed, ok] at recovered
  cases recovered
  refine ⟨⟨?_, fun segment member => (files segment member).2, ?_, ?_⟩,
    fun segment member => (files segment member).1, ?_, ?_⟩
  · rw [names, held.names, paths, ← bases, List.map_map]
    refine List.map_congr_left fun segment member => ?_
    obtain ⟨_, _, _, whole⟩ := files segment member
    exact whole.path.symm
  · rw [← bases] at ascending
    exact List.pairwise_map.mp ascending
  · intro segment member
    exact bounded segment.base (bases ▸ List.mem_map_of_mem member)
  · cases segments.head? <;> rfl
  · cases segments.getLast? <;> rfl

end ConnectForge.Infra
