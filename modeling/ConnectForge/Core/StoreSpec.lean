import Mathlib.Data.String.Basic
import ConnectForge.Core.LogStore
import ConnectForge.Core.PartitionLog
import ConnectForge.Data.OrderedMap

namespace ConnectForge

open Data

/-! What a `LogStore` is for, whatever it keeps the records in. -/

namespace PartitionLog

def empty : PartitionLog := ⟨0, [], .nil 0⟩

/-- Records are added at the end, and retention takes some off the head but
never all of them. -/
def Appends (log later : PartitionLog) (added : List Record) (truncatedTo : Option Nat) : Prop :=
  ∃ count, (count = 0 ∨ count < log.records.length + added.length) ∧
    later.records = (log.records ++ added).drop count ∧ later.start = log.start + count ∧
    truncatedTo = if count = 0 then none else some later.start

def appended (log : PartitionLog) (added : List Record) (numbered : Numbered log.next added)
    (count : Nat) : PartitionLog where
  start := log.start + count
  records := (log.records ++ added).drop count
  numbered := (numbered_append.mpr ⟨log.numbered, numbered⟩).drop count

variable {log later : PartitionLog} {added : List Record} {truncatedTo : Option Nat}

theorem Appends.evolves (appends : log.Appends later added truncatedTo) : log.Evolves later := by
  obtain ⟨count, bound, records, start, _⟩ := appends
  exact ⟨added, count, by omega, records, start⟩

theorem Appends.gains (appends : log.Appends later added truncatedTo) : log.Gains later added := by
  obtain ⟨count, bound, records, start, _⟩ := appends
  exact ⟨count, by omega, records, start⟩

theorem Appends.next (appends : log.Appends later added truncatedTo) :
    later.next = log.next + added.length := by
  obtain ⟨count, bound, records, start, _⟩ := appends
  have length := congrArg List.length records
  rw [List.length_drop, List.length_append] at length
  unfold PartitionLog.next
  omega

/-- What is kept was there or was added. -/
theorem Appends.mem (appends : log.Appends later added truncatedTo) {record : Record}
    (member : record ∈ later.records) : record ∈ log.records ∨ record ∈ added := by
  obtain ⟨count, _, records, _, _⟩ := appends
  rw [records] at member
  exact List.mem_append.mp (List.mem_of_mem_drop member)

def Unpruned (log : PartitionLog) : Prop := log.records = [] → log.start = 0

theorem Appends.unpruned (appends : log.Appends later added truncatedTo) (unpruned : log.Unpruned) :
    later.Unpruned := by
  intro none
  obtain ⟨count, bound, records, start, _⟩ := appends
  have length := congrArg List.length records
  rw [none, List.length_drop, List.length_append, List.length_nil] at length
  have empty : log.records = [] := List.eq_nil_of_length_eq_zero (by omega)
  have first := unpruned empty
  omega

end PartitionLog

structure TopicLog where
  config : TopicConfig
  partitions : List PartitionLog

abbrev StoreView := OrderedMap String TopicLog

namespace StoreView

def log? (view : StoreView) (topic : TopicName) (partition : Nat) : Option PartitionLog :=
  (view.find? topic.asStr).bind fun topic => topic.partitions[partition]?

def count? (view : StoreView) (topic : TopicName) : Option Nat :=
  (view.find? topic.asStr).map fun topic => topic.config.partitions

/-- How a store answers, when an error means that nothing has changed.
`readBack` is what a fetch makes of a record that was appended. -/
def Answers (readBack : Record → Record) :
    (request : StoreCall) → StoreView → request.Answer → StoreView → Prop
  | .createTopic config, view, answer, after =>
      (answer ≠ .ok true ∧ after = view) ∨
      (view.find? config.name.asStr = none ∧ answer = .ok true ∧
        after = view.insert config.name.asStr
          { config, partitions := List.replicate config.partitions .empty })
  | .topics, view, answer, after => answer = .ok (view.values.map TopicLog.config) ∧ after = view
  | .partitionCount topic, view, answer, after =>
      answer = .ok (view.count? topic) ∧ after = view
  | .append topic partition records timestamp, view, answer, after =>
      ((∃ reason, answer = .error reason) ∧ after = view) ∨
      ∃ state log outcome later, view.find? topic.asStr = some state ∧
        state.partitions[partition]? = some log ∧ answer = .ok outcome ∧
        materialize log.next timestamp records = some outcome.records ∧
        log.Appends later (outcome.records.map readBack) outcome.truncatedTo ∧
        after = view.insert topic.asStr { state with partitions := state.partitions.set partition later }
  | .fetch topic partition start max, view, answer, after => after = view ∧
      ((∃ reason, answer = .error reason) ∨
        ∃ log, view.log? topic partition = some log ∧ answer = .ok (log.fetch start max))
  | .stats, view, _, after => after = view

section Updates

variable {view : StoreView} {topic : TopicName} {state : TopicLog} {partition : Nat}
  {log : PartitionLog}

theorem asStr_injective {left right : TopicName} (same : left.asStr = right.asStr) : left = right := by
  cases left
  cases right
  cases same
  rfl

theorem log?_update (found : view.find? topic.asStr = some state)
    (here : state.partitions[partition]? = some log) (later : PartitionLog) (other : TopicName)
    (wanted : Nat) :
    log? (view.insert topic.asStr { state with partitions := state.partitions.set partition later })
        other wanted =
      if other = topic ∧ wanted = partition then some later else view.log? other wanted := by
  have bound := (List.getElem?_eq_some_iff.mp here).1
  rw [log?, OrderedMap.find?_insert]
  by_cases same : other = topic
  · subst same
    rw [if_pos rfl, Option.bind_some, List.getElem?_set, log?, found, Option.bind_some]
    by_cases there : wanted = partition
    · rw [if_pos there.symm, if_pos (there ▸ bound), if_pos ⟨rfl, there⟩]
    · rw [if_neg (Ne.symm there), if_neg fun both => there both.2]
  · rw [if_neg fun equal => same (asStr_injective equal), if_neg fun both => same both.1]
    rfl

theorem count?_update (found : view.find? topic.asStr = some state) (partitions : List PartitionLog)
    (other : TopicName) :
    count? (view.insert topic.asStr { state with partitions }) other = view.count? other := by
  rw [count?, OrderedMap.find?_insert]
  by_cases same : other.asStr = topic.asStr
  · rw [if_pos same, count?, same, found]
    rfl
  · rw [if_neg same]
    rfl

theorem log?_create {config : TopicConfig} (absent : view.find? config.name.asStr = none)
    (other : TopicName) (wanted : Nat) :
    log? (view.insert config.name.asStr
        { config, partitions := List.replicate config.partitions .empty }) other wanted =
      view.log? other wanted ∨
    log? (view.insert config.name.asStr
        { config, partitions := List.replicate config.partitions .empty }) other wanted =
      some .empty := by
  rw [log?, OrderedMap.find?_insert]
  by_cases same : other.asStr = config.name.asStr
  · rw [if_pos same, Option.bind_some, List.getElem?_replicate, log?, same, absent]
    split
    · exact .inr rfl
    · exact .inl rfl
  · rw [if_neg same]
    exact .inl rfl

theorem count?_create {config : TopicConfig} (absent : view.find? config.name.asStr = none)
    {other : TopicName} {count : Nat} (known : view.count? other = some count)
    (partitions : List PartitionLog) :
    count? (view.insert config.name.asStr { config, partitions }) other = some count := by
  rw [count?, OrderedMap.find?_insert]
  by_cases same : other.asStr = config.name.asStr
  · rw [count?, same, absent] at known
    cases known
  · rw [if_neg same]
    exact known

end Updates

end StoreView

/-- A store, with the calls it may be given, that behaves like what it shows: a call
that it answers with an error has changed nothing, and a record that it was given is
read back with its key and payload. -/
structure LogStoreModel where
  Store : Type
  new : Store
  answers : (request : StoreCall) → Store → request.Answer → Store → Prop
  readBack : Record → Record
  Shows : Store → StoreView → Prop
  topicCount : Store → Nat
  partitionCount : Store → TopicName → Option Nat
  startOffset : Store → TopicName → Nat → Option Nat
  readBack_offset : ∀ record, (readBack record).offset = record.offset
  readBack_submitted : ∀ record, (readBack record).submitted = record.submitted
  fresh : Shows new .empty
  step : ∀ {request store answer after view}, Shows store view → answers request store answer after →
    ∃ view', StoreView.Answers readBack request view answer view' ∧ Shows after view'
  topics : ∀ {store view}, Shows store view → topicCount store = view.entries.length
  count : ∀ {store view topic}, Shows store view →
    partitionCount store topic = view.count? topic
  start : ∀ {store view topic partition}, Shows store view →
    startOffset store topic partition = (view.log? topic partition).map PartitionLog.start

end ConnectForge
