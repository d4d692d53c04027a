import ConnectForge.Types.Record

namespace ConnectForge

/-! What a `LogStore` keeps of one partition, as the connectors see it. -/

/-- The retained records of a partition, numbered from `start` on. -/
structure PartitionLog where
  start : Nat
  records : List Record
  numbered : Numbered start records

namespace PartitionLog

def next (log : PartitionLog) : Nat := log.start + log.records.length

/-- The retained records from an offset on, at most `max` of them. -/
def slice (log : PartitionLog) (start max : Nat) : List Record :=
  (log.records.drop (Nat.max start log.start - log.start)).take max

def fetch (log : PartitionLog) (start max : Nat) : FetchResult where
  records := log.slice start max
  nextOffset := nextAfter (log.slice start max) (Nat.max start log.start)
  highWatermark := log.next

theorem slice_numbered (log : PartitionLog) (start max : Nat) :
    Numbered (Nat.max start log.start) (log.slice start max) := by
  have dropped := log.numbered.drop (Nat.max start log.start - log.start)
  rw [Nat.add_sub_cancel' (Nat.le_max_right start log.start)] at dropped
  exact dropped.take max

theorem length_slice (log : PartitionLog) (start max : Nat) :
    (log.slice start max).length = min max (log.next - Nat.max start log.start) := by
  have above : log.start ≤ Nat.max start log.start := Nat.le_max_right start log.start
  rw [slice, List.length_take, List.length_drop, next]
  omega

theorem fetch_trimmed {log later : PartitionLog} {front : List Record}
    (records : log.records = front ++ later.records) (start : later.start = log.start + front.length)
    (wanted max : Nat) : log.fetch (Nat.max wanted later.start) max = later.fetch wanted max := by
  have above : later.start ≤ Nat.max wanted later.start := Nat.le_max_right _ _
  have effective : Nat.max (Nat.max wanted later.start) log.start = Nat.max wanted later.start :=
    Nat.max_eq_left (by omega)
  have slices : log.slice (Nat.max wanted later.start) max = later.slice wanted max := by
    have distance : Nat.max wanted later.start - log.start =
        front.length + (Nat.max wanted later.start - later.start) := by omega
    rw [slice, slice, effective, records, distance, ← List.drop_drop, List.drop_left]
  have nexts : log.next = later.next := by
    rw [next, next, records, start, List.length_append, Nat.add_assoc]
  simp only [fetch, slices, effective, nexts]

/-- A later state of the partition: records were appended at its end, and
retention took some off its head. -/
def Evolves (log later : PartitionLog) : Prop :=
  ∃ added count, count ≤ log.records.length + added.length ∧
    later.records = (log.records ++ added).drop count ∧ later.start = log.start + count

theorem Evolves.refl (log : PartitionLog) : log.Evolves log := ⟨[], 0, by simp⟩

theorem Evolves.trans {first second third : PartitionLog} (left : first.Evolves second)
    (right : second.Evolves third) : first.Evolves third := by
  obtain ⟨added, count, bound, records, start⟩ := left
  obtain ⟨more, further, bound', records', start'⟩ := right
  have length := congrArg List.length records
  rw [List.length_drop, List.length_append] at length
  refine ⟨added ++ more, count + further, ?_, ?_, ?_⟩
  · rw [List.length_append]
    omega
  · rw [records', records, ← List.drop_append_of_le_length (by rw [List.length_append]; exact bound),
      List.drop_drop, List.append_assoc]
  · omega

theorem Evolves.start_le {log later : PartitionLog} (evolves : log.Evolves later) :
    log.start ≤ later.start := by
  obtain ⟨added, count, _, _, start⟩ := evolves
  omega

theorem Evolves.next_le {log later : PartitionLog} (evolves : log.Evolves later) :
    log.next ≤ later.next := by
  obtain ⟨added, count, bound, records, start⟩ := evolves
  have length := congrArg List.length records
  rw [List.length_drop, List.length_append] at length
  unfold next
  omega

/-- The log grew by these records, and some of its head is gone. -/
def Gains (log later : PartitionLog) (added : List Record) : Prop :=
  ∃ count, count ≤ log.records.length + added.length ∧
    later.records = (log.records ++ added).drop count ∧ later.start = log.start + count

theorem Gains.evolves {log later : PartitionLog} {added : List Record} (gains : log.Gains later added) :
    log.Evolves later := ⟨added, gains⟩

theorem Gains.next {log later : PartitionLog} {added : List Record} (gains : log.Gains later added) :
    later.next = log.next + added.length := by
  obtain ⟨count, bound, records, start⟩ := gains
  have length := congrArg List.length records
  rw [List.length_drop, List.length_append] at length
  unfold PartitionLog.next
  omega

end PartitionLog

/-! A name and records made for tests. -/

theorem valid_events : checkName maxTopicNameLen "events" = .ok () := by decide

def plainRecord (offset : Nat) : Record := ⟨offset, .epoch, none, [1]⟩

def plainLog (count : Nat) : PartitionLog where
  start := 0
  records := (List.range count).map plainRecord
  numbered := by
    rw [Numbered, List.map_map, List.length_map, List.length_range, ← List.range_eq_range']
    exact List.map_id _

end ConnectForge
