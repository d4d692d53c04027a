import ConnectForge.Infra.CrashRecovery
import ConnectForge.Infra.SegmentTiles
import ConnectForge.Infra.StoreRefinement

namespace ConnectForge.Infra

open Data SegmentedLog

/-! How much a partition keeps under a bound on its records. -/

/-- The file partitions reached by appends alone, with the number of records
appended so far. -/
inductive FileAppends (retention : RetentionPolicy) : Nat → PartitionState → Directory → Prop where
  | fresh : FileAppends retention 0 .fresh .empty
  | append {count part dir} {batch : List ProduceRecord} {timestamp : DateTime} {result after disk}
      (earlier : FileAppends retention count part dir)
      (appended : part.append retention batch timestamp { dir, faults := [] } =
        some (result, after, disk)) :
      FileAppends retention (count + batch.length) after disk.dir

inductive MemoryAppends (retention : RetentionPolicy) : Nat → Partition → Prop where
  | fresh : MemoryAppends retention 0 .default
  | append {count part} {batch : List ProduceRecord} {timestamp : DateTime} {records}
      (earlier : MemoryAppends retention count part)
      (numbers : materialize part.nextOffset timestamp batch = some records) :
      MemoryAppends retention (count + batch.length)
        (part.append records retention.segmentMaxRecords retention.maxRecords).2

section File

variable {retention : RetentionPolicy} {count : Nat} {part : PartitionState} {dir : Directory}

/-- What appends keep: no partition that was written to is left empty, and the
bound is met unless there is a single segment. -/
structure Retaining (retention : RetentionPolicy) (part : PartitionState) (dir : Directory) : Prop where
  tiled : part.Tiled retention.segmentMaxRecords dir
  kept : part.nextOffset = 0 ∨ part.startOffset < part.nextOffset
  bound : retention.maxRecords ≠ 0 →
    part.totalRecords ≤ retention.maxRecords ∨ part.segments.length ≤ 1

theorem Retaining.fresh (retention : RetentionPolicy) : Retaining retention .fresh .empty :=
  ⟨.fresh _, .inl rfl, fun _ => .inr (Nat.zero_le 1)⟩

theorem PartitionState.AppendedBy.retaining {full : PartitionState} {grown later : Directory}
    {records : List Record} {gone : Nat} (retaining : Retaining retention part dir)
    (appended : AppendedBy retention part full grown records gone later) :
    Retaining retention (pruned retention.segmentMaxRecords gone full) later := by
  have tiled := appended.tiled
  refine ⟨tiled, ?_, ?_⟩
  · rcases appended.bound with rfl | fewer
    · have kept := retaining.kept
      have start : (pruned retention.segmentMaxRecords 0 full).startOffset = full.startOffset := by
        rw [pruned, Nat.zero_mul, Nat.add_zero]
      have below := retaining.tiled.le
      rw [start, appended.start]
      change full.nextOffset = 0 ∨ part.startOffset < full.nextOffset
      rw [appended.next]
      omega
    · refine .inr (tiled.tiles.lt ?_)
      have positive : (full.segments.drop gone).length ≠ 0 := by
        rw [List.length_drop]
        omega
      intro none
      rw [← List.length_map Segment.tile] at positive
      exact positive (congrArg List.length none)
  · intro bounded
    have total := PartitionState.countOf_tiles tiled.tiles
    rcases (appended.prunes bounded).enough with within | single
    · left
      rw [PartitionState.totalRecords, ← total]
      exact within
    · exact .inr single

theorem FileAppends.retaining (positive : 0 < retention.segmentMaxRecords)
    (run : FileAppends retention count part dir) :
    Retaining retention part dir ∧ part.nextOffset = count := by
  induction run with
  | fresh => exact ⟨.fresh retention, rfl⟩
  | @append count part dir batch timestamp result after disk _ appended ih =>
      obtain ⟨retaining, next⟩ := ih
      cases numbers : materialize part.nextOffset timestamp batch with
      | none => simp [PartitionState.append, numbers] at appended
      | some records =>
          obtain ⟨full, grown, gone, later, _, ok, outcome⟩ := retaining.tiled.append positive numbers
          rw [ok] at appended
          cases appended
          refine ⟨outcome.retaining retaining, ?_⟩
          change full.nextOffset = _
          rw [outcome.next, next, (materialize_numbered numbers).1]

/-- What a partition retains is within its bound exactly when its last segment
is. -/
theorem Retaining.within_iff (retaining : Retaining retention part dir)
    (bounded : 0 < retention.maxRecords) :
    part.totalRecords ≤ retention.maxRecords ↔
      part.nextOffset = 0 ∨ (part.nextOffset - 1) % retention.segmentMaxRecords < retention.maxRecords := by
  rcases retaining.kept with zero | written
  · refine iff_of_true ?_ (.inl zero)
    rw [PartitionState.totalRecords, zero, Nat.zero_sub]
    exact Nat.zero_le _
  obtain ⟨aligned, tiles, _⟩ := retaining.tiled
  rcases List.eq_nil_or_concat' part.segments with none | ⟨front, active, shape⟩
  · rw [none] at tiles
    have same : part.startOffset = part.nextOffset := tiles.total
    omega
  · rw [shape, List.map_append, List.map_singleton] at tiles
    obtain ⟨base, next, filled, within⟩ := tiles.ends
    rw [List.length_map] at base
    obtain ⟨first, start⟩ := aligned
    have last : (part.nextOffset - 1) % retention.segmentMaxRecords = active.len - 1 := by
      have split : part.nextOffset - 1 =
          active.len - 1 + retention.segmentMaxRecords * (first + front.length) := by
        rw [next, base, start, Nat.mul_add, Nat.mul_comm front.length]
        omega
      rw [split, Nat.add_mul_mod_self_left, Nat.mod_eq_of_lt (by omega)]
    have total : part.totalRecords = front.length * retention.segmentMaxRecords + active.len := by
      rw [PartitionState.totalRecords, next, base]
      omega
    rw [last, total]
    constructor
    · intro fits
      exact .inr (by omega)
    · rintro (zero | short)
      · omega
      · rcases retaining.bound (by omega) with fits | single
        · rw [total] at fits
          exact fits
        · rw [shape, List.length_append, List.length_singleton] at single
          have alone : front.length = 0 := by omega
          rw [alone, Nat.zero_mul]
          omega

end File

section Memory

variable {retention : RetentionPolicy} {count : Nat} {part : Partition}

theorem Partition.prune_start {maxRecords next start : Nat} (bounded : 0 < maxRecords)
    {records : List Record} (total : start + records.length = next) (pruned : Bool) :
    (prune maxRecords next records start pruned).2.1 = max start (next - maxRecords) := by
  induction records generalizing start pruned with
  | nil =>
      rw [List.length_nil] at total
      change start = _
      omega
  | cons head rest ih =>
      rw [List.length_cons] at total
      cases rest with
      | nil =>
          rw [List.length_nil] at total
          change start = _
          omega
      | cons second rest =>
          unfold prune
          split
          · rw [ih (show start + 1 + (second :: rest).length = next by omega)]
            omega
          · change start = _
            omega

/-- A memory partition keeps the last records, as many as it may. -/
structure Partition.Holds (retention : RetentionPolicy) (part : Partition) : Prop where
  total : part.startOffset + part.records.length = part.nextOffset
  start : part.startOffset =
    if retention.maxRecords = 0 then 0 else part.nextOffset - retention.maxRecords

theorem Partition.Holds.default (retention : RetentionPolicy) : Partition.default.Holds retention := by
  refine ⟨rfl, ?_⟩
  split
  · rfl
  · exact (Nat.zero_sub _).symm

theorem Partition.Holds.append (holds : part.Holds retention) (records : List Record) :
    (part.append records retention.segmentMaxRecords retention.maxRecords).2.Holds retention ∧
      (part.append records retention.segmentMaxRecords retention.maxRecords).2.nextOffset =
        part.nextOffset + records.length := by
  obtain ⟨held, start, next⟩ := push_foldl retention.segmentMaxRecords records part
  have total : (records.foldl (push retention.segmentMaxRecords) part).startOffset +
      (records.foldl (push retention.segmentMaxRecords) part).records.length =
        (records.foldl (push retention.segmentMaxRecords) part).nextOffset := by
    rw [held, start, next, List.length_append, ← Nat.add_assoc, holds.total]
  have before := holds.start
  unfold Partition.append
  by_cases unbounded : retention.maxRecords = 0
  · rw [if_pos unbounded] at before ⊢
    refine ⟨⟨total, ?_⟩, next⟩
    rw [if_pos unbounded]
    exact start.trans before
  · have positive := Nat.pos_of_ne_zero unbounded
    rw [if_neg unbounded] at before ⊢
    obtain ⟨gone, bound, pruned⟩ := prune_drop retention.maxRecords
      (records.foldl (push retention.segmentMaxRecords) part).nextOffset
      (records.foldl (push retention.segmentMaxRecords) part).records
      (records.foldl (push retention.segmentMaxRecords) part).startOffset false
    have ended := prune_start positive total false
    rw [pruned] at ended ⊢
    refine ⟨⟨?_, ?_⟩, next⟩
    · dsimp only
      rw [List.length_drop]
      omega
    · rw [if_neg unbounded]
      dsimp only at ended ⊢
      rw [ended, start, before, next]
      omega

theorem Partition.Holds.length_le (holds : part.Holds retention) (bounded : 0 < retention.maxRecords) :
    part.records.length ≤ retention.maxRecords := by
  have total := holds.total
  have start := holds.start
  rw [if_neg (by omega)] at start
  omega

theorem MemoryAppends.holds (run : MemoryAppends retention count part) :
    part.Holds retention ∧ part.nextOffset = count := by
  induction run with
  | fresh => exact ⟨.default retention, rfl⟩
  | append earlier numbers ih =>
      obtain ⟨holds, next⟩ := ih
      obtain ⟨holds', next'⟩ := holds.append _
      exact ⟨holds', by rw [next', next, (materialize_numbered numbers).1]⟩

end Memory

/-- The memory store never retains more records than its bound; the file store,
which drops whole segments, exactly when the records in its last segment are
within the bound. -/
theorem retained_within {retention : RetentionPolicy} (valid : retention.validate = .ok ())
    (bounded : 0 < retention.maxRecords) :
    (∀ {count : Nat} {part : Partition}, MemoryAppends retention count part →
      part.records.length ≤ retention.maxRecords) ∧
    ∀ {count : Nat} {part : PartitionState} {dir : Directory},
      FileAppends retention count part dir →
      (part.totalRecords ≤ retention.maxRecords ↔
        count = 0 ∨ (count - 1) % retention.segmentMaxRecords < retention.maxRecords) := by
  refine ⟨fun run => run.holds.1.length_le bounded, fun run => ?_⟩
  obtain ⟨retaining, rfl⟩ := run.retaining (validate_positive valid)
  exact retaining.within_iff bounded

/-- Two records in one segment, of which one may be kept. -/
theorem retained_beyond :
    ∃ (retention : RetentionPolicy) (count : Nat) (part : PartitionState) (dir : Directory),
      retention.validate = .ok () ∧ retention.maxRecords = 1 ∧ FileAppends retention count part dir ∧
      count = 2 ∧ part.totalRecords = 2 := by
  let batch : List ProduceRecord := [{ key := none, payload := [1] }, { key := none, payload := [2] }]
  obtain ⟨outcome, part, disk, appended, total⟩ : ∃ outcome part disk,
      PartitionState.fresh.append { segmentMaxRecords := 2, maxRecords := 1 } batch .epoch
        { dir := .empty, faults := [] } = some (.ok outcome, part, disk) ∧ part.totalRecords = 2 :=
    ⟨_, _, _, rfl, rfl⟩
  exact ⟨{ segmentMaxRecords := 2, maxRecords := 1 }, 2, part, disk.dir, rfl, rfl,
    FileAppends.fresh.append appended, rfl, total⟩

/-- Three records in segments of two: the last segment is within the bound. -/
theorem retained_within_third :
    ∃ (retention : RetentionPolicy) (count : Nat) (part : PartitionState) (dir : Directory),
      retention.validate = .ok () ∧ retention.maxRecords = 1 ∧ FileAppends retention count part dir ∧
      count = 3 ∧ part.totalRecords ≤ 1 := by
  let retention : RetentionPolicy := { segmentMaxRecords := 2, maxRecords := 1 }
  let batch : List ProduceRecord := List.replicate 3 { key := none, payload := [1] }
  obtain ⟨outcome, part, disk, appended⟩ : ∃ outcome part disk,
      PartitionState.fresh.append retention batch .epoch { dir := .empty, faults := [] } =
        some (.ok outcome, part, disk) := ⟨_, _, _, rfl⟩
  have run : FileAppends retention 3 part disk.dir := FileAppends.fresh.append appended
  exact ⟨retention, 3, part, disk.dir, rfl, rfl, run, rfl,
    ((retained_within (show retention.validate = .ok () from rfl) Nat.one_pos).2 run).mpr
      (.inr (by decide))⟩

end ConnectForge.Infra
