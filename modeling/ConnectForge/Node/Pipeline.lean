import ConnectForge.Api.Registry
import ConnectForge.Broker.History
import ConnectForge.Core.SinkRounds
import ConnectForge.Infra.Checkpoint
import ConnectForge.Infra.Connectors
import ConnectForge.Infra.Generator

namespace ConnectForge.Node

open Data Infra Interaction

/-! A source and a sink connector over one store, which others use as well. -/

structure Pipeline (model : LogStoreModel) where
  broker : Broker model
  source : GeneratorSource
  produced : Nat
  sink : FailingSink
  checkpoints : MemoryCheckpointStore
  dlq : MemoryDeadLetterSink
  cursor : Option Nat
  processed : Nat
  dead : Nat
  registry : ConnectorRegistry

namespace Pipeline

variable {model : LogStoreModel}

def fresh (broker : Broker model) (source : GeneratorSource)
    (failEvery : Nat) : Pipeline model where
  broker
  source
  produced := 0
  sink := .new failEvery
  checkpoints := .new
  dlq := .new
  cursor := none
  processed := 0
  dead := 0
  registry := .new

/-- Others change nothing but the store. -/
def Moves (others : Broker model → Broker model → Prop) (node moved : Pipeline model) : Prop :=
  ∃ broker, Relation.ReflTransGen others node.broker broker ∧ moved = { node with broker }

def Sources : (request : SourceCall) → Pipeline model → request.Answer → Pipeline model → Prop
  | .poll, node, answer, after => ∃ source, node.source.poll = some (answer, source) ∧
      after = { node with source }
  | .now, node, _, after => after = node
  | .append topic partition records timestamp, node, answer, after => ∃ broker,
      Broker.Answers (.store (.append topic partition records timestamp)) node.broker answer broker ∧
        after = { node with broker }
  | .addProduced count, node, _, after => after = { node with produced := node.produced + count }

def Sinks : (request : SinkCall) → Pipeline model → request.Answer → Pipeline model → Prop
  | .readCursor, node, found, after => found = node.cursor ∧ after = node
  | .writeCursor offset, node, _, after => after = { node with cursor := some offset }
  | .load connector topic partition, node, found, after =>
      found = node.checkpoints.load connector topic partition ∧ after = node
  | .save checkpoint, node, answer, after => answer = (node.checkpoints.save checkpoint).1 ∧
      after = { node with checkpoints := (node.checkpoints.save checkpoint).2 }
  | .fetch topic partition start max, node, answer, after => ∃ broker,
      Broker.Answers (.store (.fetch topic partition start max)) node.broker answer broker ∧
        after = { node with broker }
  | .deliver records, node, answer, after => answer = (node.sink.deliver records).1 ∧
      after = { node with sink := (node.sink.deliver records).2 }
  | .deadLetter letter, node, answer, after => answer = (node.dlq.deadLetter letter).1 ∧
      after = { node with dlq := (node.dlq.deadLetter letter).2 }
  | .now, node, _, after => after = node
  | .addProcessed, node, _, after => after = { node with processed := node.processed + 1 }
  | .addDead, node, _, after => after = { node with dead := node.dead + 1 }
  | .readProcessed, node, found, after => found = node.processed ∧ after = node
  | .readDead, node, found, after => found = node.dead ∧ after = node

/-- Where the sink goes on: its cursor, and what a restart would load. -/
structure Stands (runtime : SinkRuntime) (node : Pipeline model) (position : Nat) : Prop where
  cursor : node.cursor = none ∨ node.cursor = some position
  loads : ∃ found, node.checkpoints.load runtime.id runtime.topic runtime.partition = .ok found ∧
    found.getD Offset.zero = position

variable {others : Broker model → Broker model → Prop} {node middle after : Pipeline model}
  {runtime : SinkRuntime} {position : Nat}

theorem Moves.refl (node : Pipeline model) : Moves others node node := ⟨node.broker, .refl, rfl⟩

theorem Moves.trans (left : Moves others node middle) (right : Moves others middle after) :
    Moves others node after := by
  obtain ⟨broker, moves, rfl⟩ := left
  obtain ⟨later, more, rfl⟩ := right
  exact ⟨later, moves.trans more, rfl⟩

theorem Stands.moves (stands : node.Stands runtime position) (moves : Moves others node after) :
    after.Stands runtime position := by
  obtain ⟨broker, _, rfl⟩ := moves
  exact ⟨stands.cursor, stands.loads⟩

theorem resolveCheckpoint_ends (stands : node.Stands runtime position)
    {result : Except CoreError Nat}
    (ended : Ends (Amid (Moves others) Sinks) runtime.resolveCheckpoint node result after) :
    result = .ok position ∧ Moves others { node with cursor := some position } after := by
  obtain ⟨found, first, ⟨moved, moves, same, rfl⟩, rest⟩ := ends_call ended
  have kept := stands.moves moves
  obtain ⟨broker, along, rfl⟩ := moves
  cases found with
  | some cached =>
      obtain ⟨rfl, rfl⟩ := ends_done rest
      have here : node.cursor = some cached := same.symm
      have known : cached = position := by simpa [here] using stands.cursor
      subst known
      exact ⟨rfl, broker, along, by rw [← here]⟩
  | none =>
      obtain ⟨loaded, second, ⟨moved, moves, same, rfl⟩, rest⟩ := ends_call rest
      obtain ⟨later, more, rfl⟩ := moves
      obtain ⟨found, loads, here⟩ := stands.loads
      have known : loaded = .ok found := same.trans loads
      subst known
      obtain ⟨_, third, ⟨moved, moves, rfl⟩, rest⟩ := ends_call rest
      obtain ⟨last, most, rfl⟩ := moves
      obtain ⟨rfl, rfl⟩ := ends_done rest
      exact ⟨by rw [here], last, (along.trans more).trans most, by rw [here]⟩

theorem commitCheckpoint_ends {offset : Nat} {result : Except CoreError Unit}
    (ended : Ends (Amid (Moves others) Sinks) (runtime.commitCheckpoint offset) node result after) :
    result = .ok () ∧ after.Stands runtime offset ∧ ∃ checkpoints,
      Moves others { node with checkpoints, cursor := some offset } after := by
  obtain ⟨saved, first, ⟨moved, moves, same, rfl⟩, rest⟩ := ends_call ended
  obtain ⟨broker, along, rfl⟩ := moves
  cases same
  obtain ⟨_, second, ⟨moved, moves, rfl⟩, rest⟩ := ends_call rest
  obtain ⟨later, more, rfl⟩ := moves
  obtain ⟨rfl, rfl⟩ := ends_done rest
  refine ⟨rfl, ⟨.inr rfl, some offset, ?_, rfl⟩, _, later, along.trans more, rfl⟩
  simp [MemoryCheckpointStore.save, MemoryCheckpointStore.load]

/-- The letters the poison among some records becomes. -/
abbrev Letters (runtime : SinkRuntime) : List Record → List DeadLetterRecord → Prop :=
  List.Forall₂ fun record letter => ∃ failedAt,
    letter = runtime.letter record (FailingSink.poisonError record).toText failedAt

/-- What the sink makes of records: it takes the sound ones, and the others end up
as letters. -/
def Handles (others : Broker model → Broker model → Prop) (runtime : SinkRuntime)
    (records : List Record) (node after : Pipeline model) : Prop :=
  ∃ (broker : Broker model) (letters : List DeadLetterRecord),
    Relation.ReflTransGen others node.broker broker ∧
    Letters runtime (FailingSink.poisoned node.sink.failEvery records) letters ∧
    after = { node with
      broker
      sink := { node.sink with
        delivered := node.sink.delivered ++ FailingSink.accepted node.sink.failEvery records }
      dlq := { records := node.dlq.records ++ letters }
      processed := node.processed + (FailingSink.accepted node.sink.failEvery records).length
      dead := node.dead + (FailingSink.poisoned node.sink.failEvery records).length }

theorem Handles.idle (moves : Moves others node after) : Handles others runtime [] node after := by
  obtain ⟨broker, along, rfl⟩ := moves
  exact ⟨broker, [], along, .nil, by simp⟩

theorem Handles.letter {record : Record} {records : List Record} {failedAt : DateTime}
    (poison : FailingSink.poison node.sink.failEvery record = true)
    (moves : Moves others
      { node with
        dlq := { records := node.dlq.records ++
          [runtime.letter record (FailingSink.poisonError record).toText failedAt] }
        dead := node.dead + 1 } middle)
    (rest : Handles others runtime records middle after) :
    Handles others runtime (record :: records) node after := by
  obtain ⟨broker, along, rfl⟩ := moves
  obtain ⟨last, letters, more, wrote, rfl⟩ := rest
  refine ⟨last, runtime.letter record (FailingSink.poisonError record).toText failedAt :: letters,
    along.trans more, ?_, ?_⟩
  · rw [FailingSink.poisoned_cons_poison poison]
    exact .cons ⟨failedAt, rfl⟩ wrote
  · rw [FailingSink.accepted_cons_poison poison, FailingSink.poisoned_cons_poison poison]
    simp only [List.append_assoc, List.singleton_append, List.length_cons, Nat.add_assoc,
      Nat.add_comm 1]

theorem Handles.deliver {record : Record} {records : List Record}
    (sound : FailingSink.poison node.sink.failEvery record = false)
    (moves : Moves others
      { node with
        sink := { node.sink with delivered := node.sink.delivered ++ [record] }
        processed := node.processed + 1 } middle)
    (rest : Handles others runtime records middle after) :
    Handles others runtime (record :: records) node after := by
  obtain ⟨broker, along, rfl⟩ := moves
  obtain ⟨last, letters, more, wrote, rfl⟩ := rest
  refine ⟨last, letters, along.trans more, ?_, ?_⟩
  · rw [FailingSink.poisoned_cons_sound sound]
    exact wrote
  · rw [FailingSink.accepted_cons_sound sound, FailingSink.poisoned_cons_sound sound]
    simp only [List.append_assoc, List.singleton_append, List.length_cons, Nat.add_assoc,
      Nat.add_comm 1]

theorem deliverOne_ends {record : Record} {result : Except String Unit}
    (ended : Ends (Amid (Moves others) Sinks) (runtime.deliverOne record) node result after) :
    if FailingSink.poison node.sink.failEvery record then
      result = .error (FailingSink.poisonError record).toText ∧ Moves others node after
    else result = .ok () ∧
      Moves others
        { node with sink := { node.sink with delivered := node.sink.delivered ++ [record] } } after := by
  obtain ⟨answer, tried, retried, rest⟩ := ends_bind ended
  have once := ends_retryIf_once (fun {reason after} failed => by
    obtain ⟨given, later, ⟨moved, moves, same, _⟩, last⟩ := ends_call failed
    obtain ⟨broker, _, rfl⟩ := moves
    obtain ⟨rfl, _⟩ := ends_done last
    by_cases poisoned : FailingSink.poison node.sink.failEvery record = true
    · rw [FailingSink.deliver_poison poisoned] at same
      cases same
      rfl
    · rw [FailingSink.deliver_sound (Bool.not_eq_true _ ▸ poisoned)] at same
      cases same) retried
  obtain ⟨given, later, ⟨moved, moves, same, rfl⟩, last⟩ := ends_call once
  obtain ⟨broker, along, rfl⟩ := moves
  obtain ⟨rfl, rfl⟩ := ends_done last
  split
  next poisoned =>
    rw [FailingSink.deliver_poison poisoned] at same rest
    cases same
    obtain ⟨rfl, rfl⟩ := ends_done rest
    exact ⟨rfl, broker, along, rfl⟩
  next sound =>
    rw [FailingSink.deliver_sound (Bool.eq_false_iff.mpr sound)] at same rest
    cases same
    obtain ⟨rfl, rfl⟩ := ends_done rest
    exact ⟨rfl, broker, along, rfl⟩

theorem deadLetter_ends {record : Record} {reason : String} {result : Except CoreError Unit}
    (ended : Ends (Amid (Moves others) Sinks) (runtime.deadLetter record reason) node result after) :
    result = .ok () ∧ ∃ failedAt, Moves others
      { node with dlq := { records := node.dlq.records ++ [runtime.letter record reason failedAt] } }
      after := by
  obtain ⟨failedAt, first, ⟨moved, moves, rfl⟩, rest⟩ := ends_call ended
  obtain ⟨broker, along, rfl⟩ := moves
  obtain ⟨answer, second, ⟨moved, moves, same, rfl⟩, rest⟩ := ends_call rest
  obtain ⟨later, more, rfl⟩ := moves
  cases same
  obtain ⟨rfl, rfl⟩ := ends_done rest
  exact ⟨rfl, failedAt, later, along.trans more, rfl⟩

/-- The loop over a batch never fails, and accounts for every record of it. -/
theorem deliverAll_ends {records : List Record} {delivered dead : Nat}
    {result : Except CoreError (Nat × Nat)}
    (ended : Ends (Amid (Moves others) Sinks) (runtime.deliverAll records delivered dead) node result
      after) :
    Handles others runtime records node after ∧ result = .ok
      (delivered + (FailingSink.accepted node.sink.failEvery records).length,
        dead + (FailingSink.poisoned node.sink.failEvery records).length) := by
  induction records generalizing node delivered dead with
  | nil =>
      obtain ⟨rfl, rfl⟩ := ends_done ended
      exact ⟨.idle (.refl _), rfl⟩
  | cons record rest ih =>
      obtain ⟨answer, tried, first, remaining⟩ := ends_bind ended
      have outcome := deliverOne_ends first
      by_cases poison : FailingSink.poison node.sink.failEvery record = true
      · rw [if_pos poison] at outcome
        obtain ⟨rfl, broker, along, rfl⟩ := outcome
        obtain ⟨stored, lettered, second, remaining⟩ := ends_bind remaining
        obtain ⟨rfl, failedAt, later, more, rfl⟩ := deadLetter_ends second
        obtain ⟨_, counted, ⟨moved, moves, rfl⟩, remaining⟩ := ends_call remaining
        obtain ⟨last, most, rfl⟩ := moves
        obtain ⟨handles, same⟩ := ih remaining
        refine ⟨.letter poison ⟨last, (along.trans more).trans most, rfl⟩ handles, same.trans ?_⟩
        rw [FailingSink.accepted_cons_poison poison, FailingSink.poisoned_cons_poison poison,
          List.length_cons, Nat.add_right_comm, Nat.add_assoc]
      · rw [if_neg poison] at outcome
        rw [Bool.not_eq_true] at poison
        obtain ⟨rfl, broker, along, rfl⟩ := outcome
        obtain ⟨_, counted, ⟨moved, moves, rfl⟩, remaining⟩ := ends_call remaining
        obtain ⟨last, most, rfl⟩ := moves
        obtain ⟨handles, same⟩ := ih remaining
        refine ⟨.deliver poison ⟨last, along.trans most, rfl⟩ handles, same.trans ?_⟩
        rw [FailingSink.accepted_cons_sound poison, FailingSink.poisoned_cons_sound poison,
          List.length_cons, Nat.add_right_comm, Nat.add_assoc]

theorem Handles.stands {records : List Record} (handles : Handles others runtime records node after)
    (stands : node.Stands runtime position) : after.Stands runtime position := by
  obtain ⟨broker, letters, _, _, rfl⟩ := handles
  exact ⟨stands.cursor, stands.loads⟩

theorem Handles.wait {records : List Record} (moves : Moves others node middle)
    (handles : Handles others runtime records middle after) :
    Handles others runtime records node after := by
  obtain ⟨broker, along, rfl⟩ := moves
  obtain ⟨last, letters, more, wrote, rfl⟩ := handles
  exact ⟨last, letters, along.trans more, wrote, rfl⟩

/-- Committing the checkpoint after a batch comes to the same as before it. -/
theorem Handles.commit {records : List Record} {checkpoints : MemoryCheckpointStore} {offset : Nat}
    (handles : Handles others runtime records node middle)
    (moves : Moves others { middle with checkpoints, cursor := some offset } after) :
    Handles others runtime records { node with checkpoints, cursor := some offset } after := by
  obtain ⟨broker, letters, along, wrote, rfl⟩ := handles
  obtain ⟨last, more, rfl⟩ := moves
  exact ⟨last, letters, along.trans more, wrote, rfl⟩

/-- The report of a round that read these records. -/
def reportOf (failEvery : Nat) (records : List Record) (checkpoint : Nat) : DeliveryReport where
  polled := records.length
  delivered := (FailingSink.accepted failEvery records).length
  deadLettered := (FailingSink.poisoned failEvery records).length
  checkpoint

/-- A round that goes through once its records are read: they are handled, and the
checkpoint is after them. -/
structure Rounds (others : Broker model → Broker model → Prop) (runtime : SinkRuntime)
    (records : List Record) (next : Nat) (node after : Pipeline model) : Prop where
  stands : after.Stands runtime next
  handles : ∃ checkpoints, Handles others runtime records { node with checkpoints, cursor := some next } after

theorem processBatch_ends {records : List Record} {result : Except CoreError DeliveryReport}
    (stands : node.Stands runtime position) (cursor : node.cursor = some position)
    (ended : Ends (Amid (Moves others) Sinks) (runtime.processBatch position records) node result after) :
    result = .ok (reportOf node.sink.failEvery records (nextAfter records position)) ∧
      Rounds others runtime records (nextAfter records position) node after := by
  cases records with
  | nil =>
      obtain ⟨rfl, rfl⟩ := ends_done ended
      refine ⟨rfl, stands, after.checkpoints, ?_⟩
      have same : { after with cursor := some position } = after := by rw [← cursor]
      change Handles others runtime [] { after with cursor := some position } after
      rw [same]
      exact .idle (.refl _)
  | cons first rest =>
      rw [SinkRuntime.processBatch, List.isEmpty_cons, if_neg Bool.false_ne_true] at ended
      obtain ⟨early, committed, before, delivering⟩ := ends_bind ended
      cases known : runtime.config.guarantee with
      | atMostOnce =>
          rw [runtime.commitUnder_same known] at before
          obtain ⟨rfl, placed, checkpoints, moves⟩ := commitCheckpoint_ends before
          obtain ⟨counts, delivered, deliveries, finishing⟩ := ends_bind delivering
          obtain ⟨handles, rfl⟩ := deliverAll_ends deliveries
          obtain ⟨late, last, commits, reports⟩ := ends_bind finishing
          rw [runtime.commitUnder_other (by rw [known]; decide)] at commits
          obtain ⟨rfl, rfl⟩ := ends_done commits
          obtain ⟨rfl, rfl⟩ := ends_done reports
          refine ⟨?_, handles.stands placed, checkpoints, handles.wait moves⟩
          obtain ⟨broker, _, rfl⟩ := moves
          simp [reportOf]
      | atLeastOnce =>
          rw [runtime.commitUnder_other (by rw [known]; decide)] at before
          obtain ⟨rfl, rfl⟩ := ends_done before
          obtain ⟨counts, delivered, deliveries, finishing⟩ := ends_bind delivering
          obtain ⟨handles, rfl⟩ := deliverAll_ends deliveries
          obtain ⟨late, last, commits, reports⟩ := ends_bind finishing
          rw [runtime.commitUnder_same known] at commits
          obtain ⟨rfl, placed, checkpoints, moves⟩ := commitCheckpoint_ends commits
          obtain ⟨rfl, rfl⟩ := ends_done reports
          exact ⟨by simp [reportOf], placed, checkpoints, handles.commit moves⟩

/-- A round of the sink, as it shows from outside: it reads at one moment, handles
what it read, and stands after it. -/
theorem sinkRound_ends {report : DeliveryReport} (stands : node.Stands runtime position)
    (ended : Ends (Amid (Moves others) Sinks) runtime.runOnce node (.ok report) after) :
    ∃ moment found later, Relation.ReflTransGen others node.broker moment ∧
      Broker.Answers (.store (.fetch runtime.topic runtime.partition position runtime.config.batchSize))
        moment (.ok found) later ∧
      report = reportOf node.sink.failEvery found.records (nextAfter found.records position) ∧
      Rounds others runtime found.records (nextAfter found.records position)
        { node with broker := later } after := by
  obtain ⟨start, resolved, first, rest⟩ := ends_bind ended
  obtain ⟨rfl, broker, along, rfl⟩ := resolveCheckpoint_ends stands first
  obtain ⟨answer, fetched, ⟨moved, moves, later, answered, rfl⟩, rest⟩ := ends_call rest
  obtain ⟨moment, more, rfl⟩ := moves
  cases answer with
  | error reason => cases (ends_done rest).1
  | ok found =>
      have here : Stands runtime { node with broker := later, cursor := some position } position :=
        ⟨.inr rfl, stands.loads⟩
      obtain ⟨same, rounds⟩ := processBatch_ends here rfl rest
      exact ⟨moment, found, later, along.trans more, answered, Except.ok.inj same, rounds.stands,
        rounds.handles⟩

theorem status_ends {status : ConnectorStatus} (stands : node.Stands runtime position)
    (ended : Ends (Amid (Moves others) Sinks) runtime.status node (.ok status) after) :
    status = {
        id := runtime.id
        kind := .sink
        guarantee := runtime.config.guarantee
        running := true
        processed := node.processed
        deadLettered := node.dead
        checkpoint := position } ∧
      Moves others { node with cursor := some position } after := by
  obtain ⟨processed, first, ⟨moved, moves, rfl, rfl⟩, rest⟩ := ends_ask ended
  obtain ⟨broker, along, rfl⟩ := moves
  obtain ⟨dead, second, ⟨moved, moves, rfl, rfl⟩, rest⟩ := ends_ask rest
  obtain ⟨later, more, rfl⟩ := moves
  obtain ⟨resolved, third, resolves, rest⟩ := ends_bind rest
  have here : Stands runtime { node with broker := later } position := ⟨stands.cursor, stands.loads⟩
  obtain ⟨rfl, last, most, rfl⟩ := resolveCheckpoint_ends here resolves
  obtain ⟨same, rfl⟩ := ends_done rest
  exact ⟨Except.ok.inj same, last, (along.trans more).trans most, rfl⟩

end Pipeline

end ConnectForge.Node
