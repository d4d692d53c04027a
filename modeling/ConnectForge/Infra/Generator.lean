import ConnectForge.Core.Source

namespace ConnectForge.Infra

open Interaction

/-! A reproducible workload, and the source connector that emits it. -/

structure RecordGenerator where
  keySpace : UInt64
  payloadBytes : Nat
  state : UInt64
  counter : UInt64

namespace RecordGenerator

def new (keySpace : UInt64) (payloadBytes : Nat) (seed : UInt64) : RecordGenerator where
  keySpace := if keySpace < 1 then 1 else keySpace
  payloadBytes := Nat.max payloadBytes 1
  state := seed ||| 1
  counter := 0

def nextU64 (generator : RecordGenerator) : UInt64 × RecordGenerator :=
  let x := generator.state
  let x := x ^^^ (x <<< 13)
  let x := x ^^^ (x >>> 7)
  let x := x ^^^ (x <<< 17)
  (x, { generator with state := x })

/-- `Vec::resize` to at least a length. -/
def padTo (length : Nat) (bytes : Bytes) : Bytes :=
  bytes ++ List.replicate (length - bytes.length) 46

/-- Produce the next record in the sequence; the source expects it to be
valid. -/
def nextRecord (generator : RecordGenerator) : Option (ProduceRecord × RecordGenerator) :=
  let (draw, generator) := generator.nextU64
  let key := draw % generator.keySpace
  let generator := { generator with counter := generator.counter + 1 }
  let payload := "record-" ++ key.toNat.repr ++ "-" ++ generator.counter.toNat.repr
  match ProduceRecord.new (some ("key-" ++ key.toNat.repr))
      (padTo generator.payloadBytes (asBytes payload)) with
  | .ok record => some (record, generator)
  | .error _ => none

theorem length_asBytes_repr {number : Nat} (bound : number < u64Modulus) :
    (asBytes number.repr).length ≤ 80 := by
  have digits : (Nat.toDigits 10 number).length ≤ 20 :=
    (Nat.length_toDigits_le_iff (by decide) (by decide)).mpr (Nat.lt_trans bound (by decide))
  have encoded : ∀ chars : List Char, (chars.flatMap String.utf8EncodeChar).length ≤ 4 * chars.length := by
    intro chars
    induction chars with
    | nil => exact Nat.le_refl 0
    | cons first rest ih =>
        have single := first.utf8Size_le_four
        rw [List.flatMap_cons, List.length_append, String.length_utf8EncodeChar, List.length_cons]
        omega
  have length := encoded (Nat.toDigits 10 number)
  rw [Nat.repr_eq_ofList_toDigits, asBytes_ofList]
  omega

theorem nextRecord_valid (generator : RecordGenerator)
    (size : generator.payloadBytes ≤ maxPayloadBytes) :
    ∃ record next, generator.nextRecord = some (record, next) ∧
      next.payloadBytes = generator.payloadBytes := by
  let draw := generator.nextU64.1 % generator.keySpace
  let counter := generator.counter + 1
  let payload := padTo generator.payloadBytes
    (asBytes ("record-" ++ draw.toNat.repr ++ "-" ++ counter.toNat.repr))
  have first := length_asBytes_repr draw.toNat_lt
  have second := length_asBytes_repr counter.toNat_lt
  have text : (asBytes "record-").length = 7 ∧ (asBytes "-").length = 1 := by decide
  have length : 0 < payload.length ∧ payload.length ≤ maxPayloadBytes := by
    simp only [payload, padTo, asBytes_append, List.length_append, List.length_replicate]
    have limit : 168 ≤ maxPayloadBytes := by decide
    omega
  have accepted : ProduceRecord.new (some ("key-" ++ draw.toNat.repr)) payload =
      .ok ⟨some ("key-" ++ draw.toNat.repr), payload⟩ := by
    have filled : payload.isEmpty = false := by
      rw [List.isEmpty_eq_false_iff]
      exact List.length_pos_iff.mp length.1
    rw [ProduceRecord.new, filled, if_neg (by decide), if_neg (Nat.not_lt.mpr length.2)]
  refine ⟨⟨some ("key-" ++ draw.toNat.repr), payload⟩, { generator.nextU64.2 with counter }, ?_, rfl⟩
  change (match ProduceRecord.new (some ("key-" ++ draw.toNat.repr)) payload with
    | .ok record => some (record, { generator.nextU64.2 with counter })
    | .error _ => none) = _
  rw [accepted]

def nextRecords : Nat → RecordGenerator → Option (List ProduceRecord × RecordGenerator)
  | 0, generator => some ([], generator)
  | count + 1, generator =>
      generator.nextRecord.bind fun (record, generator) =>
        (nextRecords count generator).map fun (records, generator) => (record :: records, generator)

theorem nextRecords_valid (count : Nat) (generator : RecordGenerator)
    (size : generator.payloadBytes ≤ maxPayloadBytes) :
    ∃ records next, nextRecords count generator = some (records, next) ∧
      records.length = count ∧ next.payloadBytes = generator.payloadBytes := by
  induction count generalizing generator with
  | zero => exact ⟨[], generator, rfl, rfl, rfl⟩
  | succ count ih =>
      obtain ⟨record, middle, found, same⟩ := generator.nextRecord_valid size
      obtain ⟨records, next, rest, length, kept⟩ := ih middle (by omega)
      refine ⟨record :: records, next, ?_, by simp [length], by omega⟩
      simp [nextRecords, found, rest]

theorem nextRecords_length {count : Nat} {generator next : RecordGenerator} {records : List ProduceRecord}
    (drawn : nextRecords count generator = some (records, next)) : records.length = count := by
  induction count generalizing generator records next with
  | zero =>
      cases drawn
      rfl
  | succ count ih =>
      obtain ⟨⟨record, middle⟩, _, rest⟩ := Option.bind_eq_some_iff.mp drawn
      obtain ⟨⟨others, last⟩, found, same⟩ := Option.map_eq_some_iff.mp rest
      cases same
      rw [List.length_cons, ih found]

theorem nextRecord_fits {generator next : RecordGenerator} {record : ProduceRecord}
    (drawn : generator.nextRecord = some (record, next)) : record.Fits := by
  unfold nextRecord at drawn
  dsimp only at drawn
  split at drawn
  next made built =>
    cases drawn
    have key := length_asBytes_repr (generator.nextU64.1 % generator.nextU64.2.keySpace).toNat_lt
    have text : (asBytes "key-").length = 4 := by decide
    have limit : 84 < u32Modulus ∧ maxPayloadBytes < u32Modulus := by decide
    rw [ProduceRecord.new] at built
    split at built
    · cases built
    split at built
    · cases built
    next short =>
      cases built
      refine ⟨?_, Nat.lt_of_le_of_lt (Nat.le_of_not_lt short) limit.2⟩
      intro name same
      cases same
      rw [asBytes_append, List.length_append]
      omega
  next failed => cases drawn

theorem nextRecords_fits {count : Nat} {generator next : RecordGenerator} {records : List ProduceRecord}
    (drawn : nextRecords count generator = some (records, next)) : ∀ record ∈ records, record.Fits := by
  induction count generalizing generator records next with
  | zero =>
      cases drawn
      simp
  | succ count ih =>
      obtain ⟨⟨record, middle⟩, one, rest⟩ := Option.bind_eq_some_iff.mp drawn
      obtain ⟨⟨others, last⟩, found, same⟩ := Option.map_eq_some_iff.mp rest
      cases same
      exact List.forall_mem_cons.mpr ⟨nextRecord_fits one, ih found⟩

/-- Two stretches of the stream make one. -/
theorem nextRecords_append {generator middle next : RecordGenerator} {first second : List ProduceRecord}
    (left : nextRecords first.length generator = some (first, middle))
    (right : nextRecords second.length middle = some (second, next)) :
    nextRecords (first ++ second).length generator = some (first ++ second, next) := by
  induction first generalizing generator with
  | nil =>
      cases left
      exact right
  | cons record rest ih =>
      obtain ⟨⟨record', later⟩, drawn, found⟩ := Option.bind_eq_some_iff.mp left
      obtain ⟨⟨others, last⟩, found, same⟩ := Option.map_eq_some_iff.mp found
      cases same
      simp only [List.cons_append, List.length_cons, nextRecords, drawn, Option.bind_some, ih found,
        Option.map_some]

end RecordGenerator

/-- A source that emits a bounded number of synthetic records in batches. -/
structure GeneratorSource where
  generator : RecordGenerator
  remaining : Nat
  batchSize : Nat

namespace GeneratorSource

def new (total batchSize : Nat) (keySpace seed : UInt64) : GeneratorSource where
  generator := .new keySpace 32 seed
  remaining := total
  batchSize := Nat.max batchSize 1

def poll (source : GeneratorSource) :
    Option (Except PortError (List ProduceRecord) × GeneratorSource) :=
  let take := Nat.min source.remaining source.batchSize
  let source := { source with remaining := source.remaining - take }
  if take = 0 then some (.ok [], source)
  else (RecordGenerator.nextRecords take source.generator).map fun (records, generator) =>
    (.ok records, { source with generator })

theorem poll_takes (source : GeneratorSource)
    (size : source.generator.payloadBytes ≤ maxPayloadBytes) :
    ∃ records after, source.poll = some (.ok records, after) ∧
      records.length = Nat.min source.remaining source.batchSize ∧
      after.remaining = source.remaining - records.length := by
  unfold poll
  by_cases empty : Nat.min source.remaining source.batchSize = 0
  · exact ⟨[], _, if_pos empty, empty.symm, by rw [empty]; rfl⟩
  · obtain ⟨records, next, found, length, _⟩ :=
      source.generator.nextRecords_valid (Nat.min source.remaining source.batchSize) size
    refine ⟨records, { source with remaining := source.remaining - records.length, generator := next },
      ?_, length, rfl⟩
    simp only [if_neg empty, found, Option.map_some, length]

/-- A poll continues the stream of the generator. -/
theorem poll_continues {source after : GeneratorSource} {answer : Except PortError (List ProduceRecord)}
    (polled : source.poll = some (answer, after)) : ∃ records, answer = .ok records ∧
      RecordGenerator.nextRecords records.length source.generator = some (records, after.generator) ∧
      records.length = Nat.min source.remaining source.batchSize ∧
      after.remaining = source.remaining - records.length ∧ after.batchSize = source.batchSize := by
  unfold poll at polled
  dsimp only at polled
  split at polled
  next empty =>
    cases polled
    exact ⟨[], rfl, rfl, empty.symm, by rw [empty]; rfl, rfl⟩
  next some =>
    obtain ⟨⟨records, generator⟩, drawn, same⟩ := Option.map_eq_some_iff.mp polled
    cases same
    have length := RecordGenerator.nextRecords_length drawn
    exact ⟨records, rfl, by rw [length]; exact drawn, length, by rw [length], rfl⟩

theorem poll_payload {source after : GeneratorSource} {answer : Except PortError (List ProduceRecord)}
    (polled : source.poll = some (answer, after))
    (size : source.generator.payloadBytes ≤ maxPayloadBytes) :
    after.generator.payloadBytes = source.generator.payloadBytes := by
  obtain ⟨records, _, continues, _⟩ := poll_continues polled
  obtain ⟨_, _, drawn, _, same⟩ := source.generator.nextRecords_valid records.length size
  cases continues.symm.trans drawn
  exact same

theorem poll_empty {source : GeneratorSource} (empty : source.remaining = 0) :
    source.poll = some (.ok [], source) := by
  have nothing : Nat.min source.remaining source.batchSize = 0 := by
    rw [empty]
    exact Nat.zero_min _
  rw [poll, nothing, if_pos rfl, Nat.sub_zero]

def Polls (source : GeneratorSource) (answer : Except PortError (List ProduceRecord))
    (after : GeneratorSource) : Prop :=
  source.poll = some (answer, after)

theorem exhausted {runtime : SourceRuntime} {world later : SourceWorld GeneratorSource}
    (empty : world.source.remaining = 0)
    (run : Relation.ReflTransGen (SourceRound runtime (SourceAnswers Polls runtime)) world later) :
    later.source.remaining = 0 ∧ later.log.submitted = world.log.submitted := by
  induction run with
  | refl => exact ⟨empty, rfl⟩
  | tail _ round ih =>
      obtain ⟨drained, same⟩ := ih
      have still := poll_empty drained
      cases round.outcome id with
      | idle answer polled nothing log unchanged =>
          obtain ⟨_, source⟩ := Prod.mk.inj (Option.some.inj (still.symm.trans polled))
          exact ⟨source ▸ drained, by rw [log, same]⟩
      | failed records polled timestamp reason refused log grown =>
          obtain ⟨_, source⟩ := Prod.mk.inj (Option.some.inj (still.symm.trans polled))
          exact ⟨source ▸ drained, by rw [log, same]⟩
      | appended records polled log grown =>
          obtain ⟨nothing, source⟩ := Prod.mk.inj (Option.some.inj (still.symm.trans polled))
          cases nothing
          exact ⟨source ▸ drained, by rw [log, List.append_nil, same]⟩

end GeneratorSource

/-- A generator source emits its only record, the append fails, and no later
round can bring the record back. -/
theorem failed_append_drops :
    ¬ ∀ (σ : Type) (polls : σ → Except PortError (List ProduceRecord) → σ → Prop)
      (runtime : SourceRuntime) (source : σ) (log : PartitionLog) (world : SourceWorld σ),
      Relation.ReflTransGen (SourceRound runtime (SourceAnswers polls runtime))
        { source, log, produced := 0, polled := [] } world → NothingDropped polls runtime world := by
  intro kept
  let runtime : SourceRuntime := ⟨⟨"source", by decide⟩, ⟨"events", by decide⟩, 0⟩
  let source := GeneratorSource.new 1 1 1 0
  let log : PartitionLog := ⟨0, [], rfl⟩
  obtain ⟨records, after, polled, length, remaining⟩ := source.poll_takes (by decide)
  replace length : records.length = 1 := length
  obtain ⟨record, rfl⟩ := List.length_eq_one_iff.mp length
  have failing : SourceRound runtime (SourceAnswers GeneratorSource.Polls runtime)
      { source, log, produced := 0, polled := [] } ⟨after, log, 0, [record]⟩ := by
    refine ⟨.error (.port (.transient "disk full")), ?_⟩
    refine .call ⟨after, polled, rfl⟩ ?_
    refine @Ends.call _ _ _ _ _ _ _ _ DateTime.epoch _ _ _ rfl ?_
    exact .call (.inl ⟨_, rfl, rfl⟩) .done
  rcases kept GeneratorSource GeneratorSource.Polls runtime source log _ (.single failing) record (by simp) with
    stored | ⟨later, before, rest, run, appended, _⟩
  · cases stored
  · have drained : after.remaining = 0 := remaining
    rw [(GeneratorSource.exhausted drained run).2] at appended
    simp at appended

end ConnectForge.Infra
