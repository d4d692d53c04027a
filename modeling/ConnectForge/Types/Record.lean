import ConnectForge.Types.Units

namespace ConnectForge

/-! Records, topics and the results of log operations. -/

/-- Milliseconds since the epoch of chrono's `DateTime::<Utc>::MIN_UTC`. -/
def minUtcMillis : Int := -8334601228800000

/-- Milliseconds since the epoch of chrono's `DateTime::<Utc>::MAX_UTC`. -/
def maxUtcMillis : Int := 8210266876799999

/-- chrono's `DateTime<Utc>`: nanoseconds since the epoch, inside the range the
library can represent. -/
structure DateTime where
  nanos : Int
  lower : minUtcMillis ≤ nanos / 1000000
  upper : nanos / 1000000 ≤ maxUtcMillis
deriving DecidableEq

/-- `DateTime::timestamp_millis`, rounding towards the past. -/
def DateTime.timestampMillis (time : DateTime) : Int := time.nanos / 1000000

/-- `Utc.timestamp_millis_opt(millis).single()`: absent outside chrono's range. -/
def DateTime.ofTimestampMillis (millis : Int) : Option DateTime :=
  if range : minUtcMillis ≤ millis ∧ millis ≤ maxUtcMillis then
    some {
      nanos := millis * 1000000
      lower := by rw [Int.mul_ediv_cancel _ (by decide)]; exact range.1
      upper := by rw [Int.mul_ediv_cancel _ (by decide)]; exact range.2 }
  else none

/-- The instant a stored timestamp reads back as: the same one, truncated to
milliseconds. -/
def DateTime.truncate (time : DateTime) : DateTime where
  nanos := time.timestampMillis * 1000000
  lower := by rw [Int.mul_ediv_cancel _ (by decide)]; exact time.lower
  upper := by rw [Int.mul_ediv_cancel _ (by decide)]; exact time.upper

def DateTime.epoch : DateTime where
  nanos := 0
  lower := by decide
  upper := by decide

@[ext] theorem DateTime.ext {left right : DateTime} (same : left.nanos = right.nanos) :
    left = right := by
  cases left
  cases right
  cases same
  rfl

theorem DateTime.ofTimestampMillis_timestampMillis (time : DateTime) :
    DateTime.ofTimestampMillis time.timestampMillis = some time.truncate := by
  have range : minUtcMillis ≤ time.timestampMillis ∧ time.timestampMillis ≤ maxUtcMillis :=
    ⟨time.lower, time.upper⟩
  simp only [DateTime.ofTimestampMillis, range, and_self, ↓reduceDIte, DateTime.truncate]

@[simp] theorem DateTime.timestampMillis_truncate (time : DateTime) :
    time.truncate.timestampMillis = time.timestampMillis :=
  Int.mul_ediv_cancel _ (by decide)

@[simp] theorem DateTime.truncate_truncate (time : DateTime) :
    time.truncate.truncate = time.truncate := by
  apply DateTime.ext
  change time.truncate.timestampMillis * 1000000 = time.timestampMillis * 1000000
  rw [DateTime.timestampMillis_truncate]

/-- A record as submitted by a producer, before an offset has been assigned. -/
structure ProduceRecord where
  key : Option String
  payload : Bytes
deriving DecidableEq

def ProduceRecord.validate (record : ProduceRecord) : Except InvalidRecord Unit :=
  if record.payload.isEmpty then .error .emptyPayload
  else if maxPayloadBytes < record.payload.length then
    .error (.payloadTooLarge record.payload.length)
  else .ok ()

def ProduceRecord.new (key : Option String) (payload : Bytes) :
    Except InvalidRecord ProduceRecord :=
  if payload.isEmpty then .error .emptyPayload
  else if maxPayloadBytes < payload.length then .error (.payloadTooLarge payload.length)
  else .ok { key, payload }

/-- A durably stored record with its assigned offset and broker timestamp. -/
structure Record where
  offset : Nat
  timestamp : DateTime
  key : Option String
  payload : Bytes
deriving DecidableEq

/-- Materialize a stored record from a producer record plus assigned
metadata. -/
def Record.fromProduce (record : ProduceRecord) (offset : Nat) (timestamp : DateTime) :
    Record :=
  { offset, timestamp, key := record.key, payload := record.payload }

def Record.submitted (record : Record) : ProduceRecord :=
  { key := record.key, payload := record.payload }

def Record.truncate (record : Record) : Record :=
  { record with timestamp := record.timestamp.truncate }

@[simp] theorem Record.truncate_offset (record : Record) :
    record.truncate.offset = record.offset := rfl

@[simp] theorem Record.truncate_truncate (record : Record) :
    record.truncate.truncate = record.truncate := by
  simp only [Record.truncate, DateTime.truncate_truncate]

/-- What the on-disk framing can represent of a producer record: 32-bit
lengths. -/
structure ProduceRecord.Fits (record : ProduceRecord) : Prop where
  key : ∀ key, record.key = some key → (asBytes key).length < u32Modulus
  payload : record.payload.length < u32Modulus

theorem ProduceRecord.Fits.keyless {payload : Bytes} (short : payload.length < u32Modulus) :
    ProduceRecord.Fits { key := none, payload } :=
  ⟨fun _ present => absurd present (Option.some_ne_none _).symm, short⟩

/-- What the on-disk framing can represent: a 64-bit offset and 32-bit
lengths. -/
structure Record.Fits (record : Record) : Prop where
  offset : record.offset < u64Modulus
  key : ∀ key, record.key = some key → (asBytes key).length < u32Modulus
  payload : record.payload.length < u32Modulus

/-- The records carry consecutive offsets from `start` on. -/
def Numbered (start : Nat) (records : List Record) : Prop :=
  records.map Record.offset = List.range' start records.length

theorem Numbered.nil (start : Nat) : Numbered start [] := rfl

theorem numbered_append {start : Nat} {first second : List Record} :
    Numbered start (first ++ second) ↔
      Numbered start first ∧ Numbered (start + first.length) second := by
  unfold Numbered
  rw [List.map_append, List.length_append, ← List.range'_append_1]
  constructor
  · intro same
    exact List.append_inj same (by simp)
  · rintro ⟨left, right⟩
    rw [left, right]

theorem numbered_cons {start : Nat} {record : Record} {rest : List Record} :
    Numbered start (record :: rest) ↔ record.offset = start ∧ Numbered (start + 1) rest := by
  unfold Numbered
  rw [List.map_cons, List.length_cons, List.range'_succ, List.cons.injEq]

theorem Numbered.getElem? {start : Nat} {records : List Record} {index : Nat} {record : Record}
    (numbered : Numbered start records) (found : records[index]? = some record) :
    record.offset = start + index := by
  have bound := (List.getElem?_eq_some_iff.mp found).1
  have offsets := congrArg (·[index]?) numbered
  simpa [List.getElem?_range' bound, found] using offsets

theorem Numbered.drop {start : Nat} {records : List Record} (count : Nat)
    (numbered : Numbered start records) : Numbered (start + count) (records.drop count) := by
  unfold Numbered at numbered ⊢
  rw [List.map_drop, numbered, List.drop_range', List.length_drop, Nat.mul_one]

theorem Numbered.take {start : Nat} {records : List Record} (count : Nat)
    (numbered : Numbered start records) : Numbered start (records.take count) := by
  rw [← List.take_append_drop count records] at numbered
  exact (numbered_append.mp numbered).1

theorem Numbered.getLast? {start : Nat} {records : List Record} {record : Record}
    (numbered : Numbered start records) (found : records.getLast? = some record) :
    Offset.next record.offset = start + records.length := by
  rw [List.getLast?_eq_getElem?] at found
  have offset := numbered.getElem? found
  have bound := (List.getElem?_eq_some_iff.mp found).1
  unfold Offset.next
  omega

/-- `records.last().map_or(default, |r| r.offset.next())`. -/
def nextAfter (records : List Record) (default : Nat) : Nat :=
  match records.getLast? with
  | none => default
  | some record => Offset.next record.offset

theorem Numbered.nextAfter {start : Nat} {records : List Record} (numbered : Numbered start records)
    (nonempty : records ≠ []) (default : Nat) :
    nextAfter records default = start + records.length := by
  unfold ConnectForge.nextAfter
  cases last : records.getLast? with
  | none => exact absurd (List.getLast?_eq_none_iff.mp last) nonempty
  | some record => exact numbered.getLast? last

theorem Numbered.ascending {start : Nat} {records : List Record} (numbered : Numbered start records) :
    records.Pairwise fun left right => left.offset < right.offset := by
  have sorted : (records.map Record.offset).Pairwise (· < ·) := by
    rw [numbered]
    exact List.pairwise_lt_range'
  exact List.pairwise_map.mp sorted

theorem Numbered.unique {start : Nat} {records : List Record} (numbered : Numbered start records)
    {left right : Record} (leftMember : left ∈ records) (rightMember : right ∈ records)
    (same : left.offset = right.offset) : left = right := by
  obtain ⟨leftIndex, leftFound⟩ := List.mem_iff_getElem?.mp leftMember
  obtain ⟨rightIndex, rightFound⟩ := List.mem_iff_getElem?.mp rightMember
  have leftOffset := numbered.getElem? leftFound
  have rightOffset := numbered.getElem? rightFound
  have indices : leftIndex = rightIndex := by omega
  rw [indices, rightFound] at leftFound
  exact (Option.some.inj leftFound).symm

theorem Numbered.bounds {start : Nat} {records : List Record} (numbered : Numbered start records)
    {record : Record} (member : record ∈ records) :
    start ≤ record.offset ∧ record.offset < start + records.length := by
  obtain ⟨index, found⟩ := List.mem_iff_getElem?.mp member
  have offset := numbered.getElem? found
  have bound := (List.getElem?_eq_some_iff.mp found).1
  omega

theorem Numbered.filter_from {start : Nat} {records : List Record} (numbered : Numbered start records)
    {bound : Nat} (above : start ≤ bound) :
    records.filter (fun record => bound ≤ record.offset) = records.drop (bound - start) := by
  induction records generalizing start bound with
  | nil => simp
  | cons record rest ih =>
      obtain ⟨offset, restNumbered⟩ := numbered_cons.mp numbered
      by_cases here : bound = start
      · have all : ∀ other ∈ record :: rest, decide (bound ≤ other.offset) = true := by
          intro other member
          have bounds := numbered.bounds member
          simpa [here] using bounds.1
        rw [List.filter_eq_self.mpr all, here, Nat.sub_self, List.drop_zero]
      · have skipped : decide (bound ≤ record.offset) = false := by
          simp only [decide_eq_false_iff_not]
          omega
        obtain ⟨distance, shift⟩ : ∃ distance, bound - start = distance + 1 := ⟨bound - start - 1, by omega⟩
        rw [List.filter_cons, skipped, shift, List.drop_succ_cons]
        have tail := ih restNumbered (show start + 1 ≤ bound by omega)
        rw [show bound - (start + 1) = distance by omega] at tail
        simpa using tail

/-- How much data a partition retains before the oldest segments are pruned. -/
structure RetentionPolicy where
  segmentMaxRecords : Nat
  maxRecords : Nat
deriving Repr, DecidableEq

def RetentionPolicy.default : RetentionPolicy := { segmentMaxRecords := 1024, maxRecords := 1_000_000 }

def RetentionPolicy.validate (policy : RetentionPolicy) : Except InvalidRecord Unit :=
  if policy.segmentMaxRecords = 0 then .error .zeroSegmentSize else .ok ()

structure TopicConfig where
  name : TopicName
  partitions : Nat
  retention : RetentionPolicy
deriving DecidableEq

def TopicConfig.new (name : TopicName) (partitions : Nat) (retention : RetentionPolicy) :
    Except InvalidRecord TopicConfig :=
  if partitions = 0 then .error .zeroPartitions
  else
    match retention.validate with
    | .error reason => .error reason
    | .ok () => .ok { name, partitions, retention }

theorem TopicConfig.new_eq {name : TopicName} {partitions : Nat} {retention : RetentionPolicy}
    {config : TopicConfig} (built : TopicConfig.new name partitions retention = .ok config) :
    config = { name, partitions, retention } ∧ retention.validate = .ok () := by
  unfold TopicConfig.new at built
  split at built
  · contradiction
  · split at built
    · contradiction
    · rename_i valid
      cases built
      exact ⟨rfl, valid⟩

def TopicConfig.fnv1a (bytes : Bytes) : UInt64 :=
  bytes.foldl (fun hash byte => (hash ^^^ byte.toUInt64) * 0x00000100000001b3) 0xcbf29ce484222325

def TopicConfig.partitionFor (config : TopicConfig) (key : Option String) (roundRobin : Nat) : Nat :=
  match key with
  | some key => (fnv1a (asBytes key)).toNat % config.partitions
  | none => roundRobin % config.partitions

structure FetchResult where
  records : List Record
  nextOffset : Nat
  highWatermark : Nat
deriving DecidableEq

/-- A fetch of records as they read back from disk. -/
def FetchResult.truncate (result : FetchResult) : FetchResult :=
  { result with records := result.records.map Record.truncate }

theorem nextAfter_truncate (records : List Record) (default : Nat) :
    nextAfter (records.map Record.truncate) default = nextAfter records default := by
  simp only [nextAfter, List.getLast?_map]
  cases records.getLast? <;> rfl

structure ProduceResult where
  baseOffset : Nat
  lastOffset : Nat
  count : Nat
  truncatedTo : Option Nat
deriving Repr, DecidableEq

structure LogStats where
  topics : Nat
  partitions : Nat
  records : Nat
  segments : Nat
  producedTotal : Nat
  fetchedTotal : Nat
deriving Repr, DecidableEq

/-- What a durable append returns: the materialized records plus the new head
offset if retention pruned data. -/
structure AppendOutcome where
  records : List Record
  truncatedTo : Option Nat
deriving DecidableEq

/-- Give the records of a batch consecutive offsets from `next` on, as every
store does before it writes.  The source counts in `u64`, so a batch that would
step past the last offset panics: no outcome. -/
def materialize (next : Nat) (timestamp : DateTime) :
    List ProduceRecord → Option (List Record)
  | [] => some []
  | record :: rest =>
      if next + 1 < u64Modulus then
        (materialize (next + 1) timestamp rest).map
          (Record.fromProduce record next timestamp :: ·)
      else none

theorem materialize_cons {next : Nat} {timestamp : DateTime} {record : ProduceRecord}
    {rest : List ProduceRecord} {records : List Record}
    (materialized : materialize next timestamp (record :: rest) = some records) :
    ∃ tail, records = Record.fromProduce record next timestamp :: tail := by
  unfold materialize at materialized
  split at materialized
  · obtain ⟨tail, _, rfl⟩ := Option.map_eq_some_iff.mp materialized
    exact ⟨tail, rfl⟩
  · contradiction

/-- The offsets of a materialized batch continue the partition's numbering, and
none of them was pushed past the last 64-bit value. -/
theorem materialize_numbered {next : Nat} {timestamp : DateTime} {batch : List ProduceRecord}
    {records : List Record} (materialized : materialize next timestamp batch = some records) :
    records.length = batch.length ∧ Numbered next records ∧
      ∀ record ∈ records, record.offset + 1 < u64Modulus := by
  induction batch generalizing next records with
  | nil =>
      cases materialized
      exact ⟨rfl, .nil next, by simp⟩
  | cons record rest ih =>
      unfold materialize at materialized
      split at materialized
      · rename_i room
        obtain ⟨tail, found, rfl⟩ := Option.map_eq_some_iff.mp materialized
        obtain ⟨length, numbered, bounded⟩ := ih found
        refine ⟨by simp [length], ?_, ?_⟩
        · unfold Numbered at numbered ⊢
          rw [List.map_cons, numbered, List.length_cons, List.range'_succ]
          rfl
        · intro other member
          rcases List.mem_cons.mp member with rfl | member
          · exact room
          · exact bounded other member
      · contradiction

theorem materialize_fits {next : Nat} {timestamp : DateTime} {batch : List ProduceRecord}
    {records : List Record} (materialized : materialize next timestamp batch = some records)
    (fits : ∀ record ∈ batch, record.Fits) : ∀ record ∈ records, record.Fits := by
  induction batch generalizing next records with
  | nil =>
      cases materialized
      simp
  | cons record rest ih =>
      unfold materialize at materialized
      split at materialized
      · rename_i room
        obtain ⟨tail, found, rfl⟩ := Option.map_eq_some_iff.mp materialized
        have first := fits record (by simp)
        intro other member
        rcases List.mem_cons.mp member with rfl | member
        · exact ⟨Nat.lt_of_succ_lt room, first.key, first.payload⟩
        · exact ih found (fun later inRest => fits later (by simp [inRest])) other member
      · contradiction

theorem materialize_submitted {next : Nat} {timestamp : DateTime} {batch : List ProduceRecord}
    {records : List Record} (materialized : materialize next timestamp batch = some records) :
    records.map Record.submitted = batch := by
  induction batch generalizing next records with
  | nil =>
      cases materialized
      rfl
  | cons record rest ih =>
      unfold materialize at materialized
      split at materialized
      · obtain ⟨tail, found, rfl⟩ := Option.map_eq_some_iff.mp materialized
        rw [List.map_cons, ih found]
        rfl
      · contradiction

end ConnectForge
