import ConnectForge.Api.Records
import ConnectForge.Node.Supervisor

namespace ConnectForge

open Data Infra Interaction

/-! Connectors and their dead letters in the GraphQL schema. -/

structure DeadLetterObject where
  connector : String
  topic : String
  partition : Nat
  offset : Nat
  payload : String
  reason : String
  attempts : Nat
  failedAt : DateTime
deriving DecidableEq

def DeadLetterObject.ofRecord (record : DeadLetterRecord) : DeadLetterObject where
  connector := record.connector.asStr
  topic := record.topic.asStr
  partition := record.partition
  offset := record.offset
  payload := fromUtf8Lossy record.payload
  reason := record.reason
  attempts := record.attempts
  failedAt := record.failedAt

structure ConnectorStatusObject where
  id : String
  kind : String
  guarantee : String
  running : Bool
  processed : Nat
  deadLettered : Nat
  checkpoint : Nat
deriving DecidableEq

def ConnectorStatusObject.ofStatus (status : ConnectorStatus) : ConnectorStatusObject where
  id := status.id.asStr
  kind := match status.kind with
    | .source => "source"
    | .sink => "sink"
  guarantee := match status.guarantee with
    | .atLeastOnce => "at_least_once"
    | .atMostOnce => "at_most_once"
  running := status.running
  processed := status.processed
  deadLettered := status.deadLettered
  checkpoint := status.checkpoint

namespace QueryRoot

def connectors (registry : ConnectorRegistry) : List ConnectorStatusObject :=
  registry.statuses.map ConnectorStatusObject.ofStatus

def deadLetters (registry : ConnectorRegistry) : List DeadLetterObject :=
  registry.deadLetters.map DeadLetterObject.ofRecord

end QueryRoot

namespace Node

/-- A dead letter as operators see it, and the record it is of. -/
structure Tells (record : Record) (letter : DeadLetterObject) : Prop where
  connector : letter.connector = "logging-sink"
  topic : letter.topic = "connector-demo"
  partition : letter.partition = 0
  offset : letter.offset = record.offset
  payload : letter.payload = fromUtf8Lossy record.payload

theorem Pipeline.Letters.tell {records : List Record} {letters : List DeadLetterRecord}
    (wrote : Pipeline.Letters loggingSink records letters) :
    List.Forall₂ Tells records (letters.map DeadLetterObject.ofRecord) := by
  refine List.forall₂_map_right_iff.mpr (wrote.imp ?_)
  rintro record _ ⟨failedAt, rfl⟩
  exact ⟨rfl, rfl, rfl, rfl, rfl⟩

/-- Letters are told in the order of their records. -/
theorem tells_offsets {records : List Record} {letters : List DeadLetterObject}
    (tells : List.Forall₂ Tells records letters) :
    letters.map DeadLetterObject.offset = records.map Record.offset := by
  induction tells with
  | nil => rfl
  | cons first _ ih => rw [List.map_cons, List.map_cons, first.offset, ih]

theorem tells_mem {records : List Record} {letters : List DeadLetterObject}
    (tells : List.Forall₂ Tells records letters) {letter : DeadLetterObject} (member : letter ∈ letters) :
    ∃ record ∈ records, Tells record letter := by
  induction tells with
  | nil => cases member
  | @cons record _ _ _ first _ ih =>
      rcases List.mem_cons.mp member with rfl | later
      · exact ⟨record, List.mem_cons_self, first⟩
      · obtain ⟨other, known, told⟩ := ih later
        exact ⟨other, List.mem_cons_of_mem _ known, told⟩

/-- What operators see after one or more ticks, whatever other clients do: the two
connectors, whose counts are those of what was delivered and of the dead letters; and
the dead letters in order, each at an offset it is due at and with the text that any
later fetch covering it returns there, until it is pruned. -/
theorem operators_see {model : LogStoreModel} {engine : LogConfig} {node after : Pipeline model}
    (starts : Supervisor.Starts engine node) (ticks : Relation.TransGen Supervisor.Tick node after) :
    ∃ sourced next,
      QueryRoot.connectors after.registry =
        [⟨"stream-source", "source", "at_least_once", true, sourced, 0, 0⟩,
          ⟨"logging-sink", "sink", "at_least_once", true, after.sink.delivered.length,
            (QueryRoot.deadLetters after.registry).length, next⟩] ∧
      ((QueryRoot.deadLetters after.registry).map DeadLetterObject.offset).Pairwise (· < ·) ∧
      ∀ letter ∈ QueryRoot.deadLetters after.registry, letter.connector = "logging-sink" ∧
        letter.topic = "connector-demo" ∧ letter.partition = 0 ∧ 500 ∣ letter.offset ∧
        letter.offset < next ∧
        ∀ (served : LogConfig) {broker later : Broker model} {start max : Nat} {found : FetchResultObject},
          after.broker.Others broker →
          Ends (Amid Broker.Others Broker.Answers)
            (QueryRoot.fetch served letter.topic letter.partition start max) broker (.ok found) later →
          start ≤ letter.offset → letter.offset < start + served.fetchLimit max →
          later.trimmed connectorDemo 0 ≤ letter.offset →
          ∃ entry ∈ found.records, entry.offset = letter.offset ∧ entry.payload = letter.payload := by
  obtain ⟨generated, placed, next, seen, sound, reported, _⟩ := starts.sound.ticks ticks
  have accounts := sound.accounts
  have delivered := accounts.delivered
  have letters := accounts.letters
  rw [sound.failEvery] at delivered letters
  have numbered := (accounts.recalled.history connectorDemo 0).1
  have tells : List.Forall₂ Tells (FailingSink.poisoned 500 seen) (QueryRoot.deadLetters after.registry) := by
    rw [QueryRoot.deadLetters, reported.letters]
    exact letters.tell
  refine ⟨generated.length, next, ?_, ?_, ?_⟩
  · rw [QueryRoot.connectors, reported.statuses, delivered, ← tells.length_eq]
    rfl
  · rw [tells_offsets tells]
    have ordered : (FailingSink.poisoned 500 seen).Sublist ((after.log loggingSink).take next) :=
      List.filter_sublist.trans accounts.ordered
    exact List.pairwise_map.mpr ((numbered.take next).ascending.sublist ordered)
  · intro letter member
    obtain ⟨record, poison, told⟩ := tells_mem tells member
    obtain ⟨seenRecord, due⟩ := List.mem_filter.mp poison
    obtain ⟨index, there⟩ := List.mem_iff_getElem?.mp (accounts.ordered.subset seenRecord)
    have bound := (List.getElem?_eq_some_iff.mp there).1
    rw [List.length_take] at bound
    rw [List.getElem?_take_of_lt (by omega)] at there
    have offset : record.offset = index := (numbered.getElem? there).trans (Nat.zero_add _)
    refine ⟨told.connector, told.topic, told.partition, ?_, ?_, ?_⟩
    · rw [told.offset]
      simp only [FailingSink.poison, Bool.and_eq_true, beq_iff_eq] at due
      exact Nat.dvd_of_mod_eq_zero due.2
    · rw [told.offset]
      omega
    · intro served broker later start max found moves fetched low high kept
      rw [told.topic, told.partition] at fetched
      rw [told.offset] at low high kept
      obtain ⟨topic, result, valid, rfl, fetches⟩ := QueryRoot.fetch_ends fetched
      obtain rfl : connectorDemo = topic :=
        Except.ok.inj ((TopicName.new_asStr connectorDemo).symm.trans valid)
      rw [← offset] at there
      have read := Broker.given_read (accounts.recalled.trans moves) fetches
        (Broker.given_stays moves there) low high kept
      exact ⟨_, List.mem_map_of_mem read, told.offset.symm, told.payload.symm⟩

theorem operators_see_first :
    ∃ node after : Pipeline memoryStore, Supervisor.Starts .default node ∧
      Relation.TransGen Supervisor.Tick node after ∧
      ∃ sourced next,
        QueryRoot.connectors after.registry =
          [⟨"stream-source", "source", "at_least_once", true, sourced, 0, 0⟩,
            ⟨"logging-sink", "sink", "at_least_once", true, after.sink.delivered.length,
              (QueryRoot.deadLetters after.registry).length, next⟩] ∧
        ((QueryRoot.deadLetters after.registry).map DeadLetterObject.offset).Pairwise (· < ·) ∧
        ∀ letter ∈ QueryRoot.deadLetters after.registry, letter.connector = "logging-sink" ∧
          letter.topic = "connector-demo" ∧ letter.partition = 0 ∧ 500 ∣ letter.offset ∧
          letter.offset < next ∧
          ∀ (served : LogConfig) {broker later : Broker memoryStore} {start max : Nat}
              {found : FetchResultObject}, after.broker.Others broker →
            Ends (Amid Broker.Others Broker.Answers)
              (QueryRoot.fetch served letter.topic letter.partition start max) broker (.ok found) later →
            start ≤ letter.offset → letter.offset < start + served.fetchLimit max →
            later.trimmed connectorDemo 0 ≤ letter.offset →
            ∃ entry ∈ found.records, entry.offset = letter.offset ∧ entry.payload = letter.payload := by
  obtain ⟨node, after, starts, tick⟩ := Supervisor.first_tick
  exact ⟨node, after, starts, tick, operators_see starts tick⟩

end Node

end ConnectForge
