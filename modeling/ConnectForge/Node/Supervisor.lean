import ConnectForge.Node.Progress

namespace ConnectForge.Node

open Data Infra Interaction

/-! The connector supervisor: every tick it fills a topic from a generator, drains
it into a sink and reports. -/

def connectorDemo : TopicName := ⟨"connector-demo", by decide⟩

def streamSource : SourceRuntime where
  id := ⟨"stream-source", by decide⟩
  topic := connectorDemo
  partition := 0

def loggingSink : SinkRuntime where
  id := ⟨"logging-sink", by decide⟩
  topic := connectorDemo
  partition := 0
  config := .default

/-- An effectively unbounded source that streams 200 records per tick. -/
def supervisorSource : GeneratorSource := .new (u64Modulus - 1) 200 1000 0x00C0FFEE

def sourceStatus (produced : Nat) : ConnectorStatus where
  id := streamSource.id
  kind := .source
  guarantee := .atLeastOnce
  running := true
  processed := produced
  deadLettered := 0
  checkpoint := Offset.zero

namespace Supervisor

variable {model : LogStoreModel}

/-- The state in which the loop is entered, whether the topic was there or not. -/
def Starts (engine : LogConfig) (node : Pipeline model) : Prop :=
  ∃ before result broker, before.Recalled ∧
    Ends (Amid Broker.Others Broker.Answers) (engine.createTopic connectorDemo 1 .default) before result
      broker ∧
    node = .fresh broker supervisorSource 500

/-- A turn of the loop that goes through, with others at work on the store. -/
def Tick (node after : Pipeline model) : Prop :=
  ∃ count sourced reports drained status told,
    Ends (Amid (Pipeline.Moves Broker.Calls) Pipeline.Sources) streamSource.runOnce node (.ok count)
      sourced ∧
    Repeats (Amid (Pipeline.Moves Broker.Calls) Pipeline.Sinks) loggingSink.runOnce
      (fun report => report.polled = 0) sourced reports drained ∧
    Ends (Amid (Pipeline.Moves Broker.Calls) Pipeline.Sinks) loggingSink.status
      { drained with registry := drained.registry.upsertStatus (sourceStatus drained.produced) }
      (.ok status) told ∧
    after = { told with registry := (told.registry.upsertStatus status).setDeadLetters told.dlq.records }

def sinkStatus (seen : List Record) (next : Nat) : ConnectorStatus where
  id := loggingSink.id
  kind := .sink
  guarantee := .atLeastOnce
  running := true
  processed := (FailingSink.accepted 500 seen).length
  deadLettered := (FailingSink.poisoned 500 seen).length
  checkpoint := next

/-- The registry between two ticks. -/
def Listed (registry : ConnectorRegistry) : Prop :=
  registry.statuses = [] ∨ ∃ produced seen next,
    registry.statuses = [sourceStatus produced, sinkStatus seen next]

theorem Listed.report {registry : ConnectorRegistry} (listed : Listed registry) (produced : Nat)
    (seen : List Record) (next : Nat) :
    ((registry.upsertStatus (sourceStatus produced)).upsertStatus (sinkStatus seen next)).statuses =
      [sourceStatus produced, sinkStatus seen next] := by
  have apart : (sourceStatus produced).id ≠ (sinkStatus seen next).id := by
    change streamSource.id ≠ loggingSink.id
    decide
  have same : ∀ before, (sourceStatus before).id = (sourceStatus produced).id := fun _ => rfl
  have same' : ∀ seen' before, (sinkStatus seen' before).id = (sinkStatus seen next).id := fun _ _ => rfl
  rcases listed with none | ⟨before, seen', last, two⟩
  · simp [ConnectorRegistry.upsertStatus, none, upsert, apart]
  · simp [ConnectorRegistry.upsertStatus, two, upsert, apart, same, same']

/-- What holds between two ticks. -/
structure Sound (node : Pipeline model) (generated : List ProduceRecord) (placed : List Record)
    (next : Nat) (seen : List Record) : Prop where
  supplies : node.Supplies streamSource supervisorSource.generator (u64Modulus - 1) generated placed
  accounts : node.Accounts loggingSink next seen
  failEvery : node.sink.failEvery = 500
  listed : Listed node.registry

/-- What a tick leaves for others to see. -/
structure Reported (node : Pipeline model) (generated : List ProduceRecord) (placed : List Record)
    (next : Nat) (seen : List Record) : Prop where
  covered : Missed (node.pruned loggingSink) placed seen
  statuses : node.registry.statuses = [sourceStatus generated.length, sinkStatus seen next]
  letters : node.registry.deadLetters = node.dlq.records

variable {node after : Pipeline model} {generated : List ProduceRecord} {placed seen : List Record}
  {next : Nat}

/-- A tick keeps to the invariant, and sees whatever was in the topic before it. -/
theorem Sound.tick (sound : Sound node generated placed next seen) (tick : Tick node after) :
    ∃ generated' placed' next' seen', Sound after generated' placed' next' seen' ∧
      Reported after generated' placed' next' seen' ∧ node.broker.Others after.broker ∧
      Missed (after.pruned loggingSink) (node.log loggingSink) seen' := by
  obtain ⟨count, sourced, reports, drained, status, told, sources, drains, tells, rfl⟩ := tick
  obtain ⟨records, kept, supplies, _, moves, same⟩ := sound.supplies.round sources
  have before : sourced.Accounts loggingSink next seen := by
    rw [same]
    exact (sound.accounts.others moves).elsewhere _ _ _
  have limit : sourced.sink.failEvery = 500 := by rw [same]; exact sound.failEvery
  obtain ⟨found, next', accounts, _, _, same', moment, reads, last, caught⟩ :=
    before.drain (by decide) drains
  have limit' : drained.sink.failEvery = 500 := by rw [same']; exact limit
  have kept' : drained.Supplies streamSource supervisorSource.generator (u64Modulus - 1)
      (generated ++ records) (placed ++ kept) := by
    rw [same']
    exact { supplies.others (reads.trans last) with }
  obtain ⟨rfl, broker, more, rfl⟩ := Pipeline.status_ends
    (⟨accounts.stands.cursor, accounts.stands.loads⟩ : Pipeline.Stands loggingSink
      { drained with registry := drained.registry.upsertStatus (sourceStatus drained.produced) } next') tells
  have along : drained.broker.Others broker := more
  have status : ({
      id := loggingSink.id
      kind := .sink
      guarantee := loggingSink.config.guarantee
      running := true
      processed := drained.processed
      deadLettered := drained.dead
      checkpoint := next' } : ConnectorStatus) = sinkStatus (seen ++ found) next' := by
    rw [accounts.processed, accounts.dead, limit']
    rfl
  have listed : Listed drained.registry := by
    rw [same', same]
    exact sound.listed
  have statuses := listed.report drained.produced (seen ++ found) next'
  have pruned := accounts.recalled.trimmed_grows along connectorDemo 0
  have pruned' := Broker.Recalled.trimmed_grows (supplies.recalled.trans reads) last connectorDemo 0
  have caught' : Missed (broker.trimmed connectorDemo 0) (moment.given connectorDemo 0) (seen ++ found) :=
    caught.later (pruned'.trans pruned)
  refine ⟨generated ++ records, placed ++ kept, next', seen ++ found,
    ⟨{ kept'.others along with }, ?_, limit', ?_⟩, ⟨?_, ?_, rfl⟩, ?_, ?_⟩
  · have later := accounts.others along
    exact { later with stands := ⟨.inr rfl, accounts.stands.loads⟩ }
  · right
    refine ⟨drained.produced, seen ++ found, next', ?_⟩
    rw [← statuses, ← status]
    rfl
  · intro record member
    have there := (supplies.ordered.trans (Broker.given_grows reads connectorDemo 0).sublist).subset member
    exact caught' record there
  · rw [← kept'.produced, ← statuses, ← status]
    rfl
  · exact ((moves.trans reads).trans last).trans along
  · intro record member
    have there := (Broker.given_grows (moves.trans reads) connectorDemo 0).subset member
    exact caught' record there

theorem Starts.sound {engine : LogConfig} (starts : Starts engine node) : Sound node [] [] 0 [] := by
  obtain ⟨before, result, broker, recalled, created, rfl⟩ := starts
  have later : broker.Recalled := recalled.trans (Broker.Others.ended created)
  refine ⟨⟨later, rfl, rfl, rfl, List.nil_sublist _, rfl⟩,
    ⟨later, ⟨.inl rfl, none, rfl, rfl⟩, Nat.zero_le _, List.nil_sublist _, ?_, rfl, .nil, rfl, rfl⟩, rfl, .inl rfl⟩
  intro record member
  simp at member

theorem Sound.ticks (sound : Sound node generated placed next seen)
    (ticks : Relation.TransGen Tick node after) :
    ∃ generated' placed' next' seen', Sound after generated' placed' next' seen' ∧
      Reported after generated' placed' next' seen' ∧ node.broker.Others after.broker ∧
      Missed (after.pruned loggingSink) (node.log loggingSink) seen' := by
  induction ticks with
  | single tick => exact sound.tick tick
  | tail _ tick ih =>
      obtain ⟨_, _, _, _, sound', _, before, _⟩ := ih
      obtain ⟨generated', placed', next', seen', sound'', reported, moves, caught⟩ := sound'.tick tick
      refine ⟨generated', placed', next', seen', sound'', reported, before.trans moves, ?_⟩
      intro record member
      exact caught record ((Broker.given_grows before connectorDemo 0).subset member)

/-- Alone on a store that serves, the supervisor can make a tick. -/
theorem Sound.tick_runs (serves : model.Serves) (sound : Sound node generated placed next seen)
    (room : (node.log loggingSink).length + Nat.min node.source.remaining node.source.batchSize < u64Modulus)
    (size : node.source.generator.payloadBytes ≤ maxPayloadBytes)
    (has : node.broker.Has connectorDemo 0) : ∃ after, Tick node after := by
  have wide : ∀ {node after : Pipeline model}, Pipeline.Moves (Pipeline.Alone model) node after →
      Pipeline.Moves Broker.Calls node after := by
    rintro node after ⟨broker, along, rfl⟩
    exact ⟨broker, Pipeline.others_calls False.elim along, rfl⟩
  obtain ⟨count, sourced, sources⟩ := @Pipeline.sourceRound_runs _ _ streamSource serves room size has
  have sources' := @Ends.imp _ _ _ _ _ (Amid (Pipeline.Moves Broker.Calls) Pipeline.Sources) _ _
    (fun ⟨moved, moves, answered⟩ => ⟨moved, wide moves, answered⟩) _ _ sources
  obtain ⟨records, kept, supplies, _, moves, same⟩ := sound.supplies.round sources'
  have before : sourced.Accounts loggingSink next seen := by
    rw [same]
    exact (sound.accounts.others moves).elsewhere _ _ _
  obtain ⟨reports, drained, drains⟩ := before.drains serves (has.others moves)
  have drains' := @Repeats.imp _ _ _ _ _ _ (Amid (Pipeline.Moves Broker.Calls) Pipeline.Sinks) _ _
    (fun ⟨moved, moves, answered⟩ => ⟨moved, wide moves, answered⟩) _ _ _ drains
  obtain ⟨_, next', accounts, _⟩ := before.drain (by decide) drains'
  obtain ⟨status, told, tells⟩ := Pipeline.status_runs Broker.Calls
    (⟨accounts.stands.cursor, accounts.stands.loads⟩ : Pipeline.Stands loggingSink
      { drained with registry := drained.registry.upsertStatus (sourceStatus drained.produced) } next')
  exact ⟨_, count, sourced, reports, drained, status, told, sources', drains', tells, rfl⟩

/-- A batch always fits into a topic with next to nothing in it. -/
theorem supervisorSource_room {given : List Record} (few : given.length ≤ 1) :
    given.length + Nat.min supervisorSource.remaining supervisorSource.batchSize < u64Modulus := by
  have room : 1 + Nat.min supervisorSource.remaining supervisorSource.batchSize < u64Modulus := by decide
  exact Nat.lt_of_le_of_lt (Nat.add_le_add_right few _) room

/-- The first tick, over the store in memory. -/
theorem first_tick :
    ∃ node after : Pipeline memoryStore, Starts .default node ∧ Relation.TransGen Tick node after := by
  obtain ⟨created, creates⟩ := @Broker.createTopic_serves _ memoryStore_serves .default connectorDemo 1
    .default Nat.one_ne_zero rfl (by decide)
  have fresh := Broker.createTopic_created .new Nat.one_ne_zero creates
  have starts : Supervisor.Starts .default (.fresh created supervisorSource 500) :=
    ⟨_, _, created, .new, Ends.amid (fun _ => .refl) creates, rfl⟩
  have none : created.given connectorDemo 0 = [] := fresh.empty 0
  obtain ⟨after, tick⟩ := starts.sound.tick_runs memoryStore_serves
    (supervisorSource_room (show (created.given connectorDemo 0).length ≤ 1 by rw [none]; exact Nat.zero_le 1))
    (show 32 ≤ maxPayloadBytes by decide) (fresh.has 0 Nat.one_pos)
  exact ⟨_, after, starts, .single tick⟩

end Supervisor

/-- Whatever others do to the store, the pipeline accounts for every record exactly
once: after one or more ticks, the records drawn from the generator are in the
topic, once and in order; the sink has seen records of the topic, once and in
order, each of which was either delivered or dead-lettered, and all of those of the
source and below its checkpoint but for pruned ones; and this is what the registry
shows. -/
theorem supervisor_exactly_once {model : LogStoreModel} {engine : LogConfig} {node after : Pipeline model}
    (starts : Supervisor.Starts engine node) (ticks : Relation.TransGen Supervisor.Tick node after) :
    ∃ generated placed next seen,
      RecordGenerator.nextRecords (List.length generated) supervisorSource.generator =
        some (generated, after.source.generator) ∧
      placed.map Record.submitted = generated ∧ placed.Sublist (after.log loggingSink) ∧
      seen.Sublist ((after.log loggingSink).take next) ∧ Numbered 0 (after.log loggingSink) ∧
      Missed (after.pruned loggingSink) (placed ++ (after.log loggingSink).take next) seen ∧
      after.sink.delivered = FailingSink.accepted 500 seen ∧
      Pipeline.Letters loggingSink (FailingSink.poisoned 500 seen) after.dlq.records ∧
      after.registry =
        ⟨[sourceStatus generated.length, Supervisor.sinkStatus seen next], after.dlq.records⟩ := by
  obtain ⟨generated, placed, next, seen, sound, reported, _⟩ := starts.sound.ticks ticks
  have accounts := sound.accounts
  have delivered := accounts.delivered
  have letters := accounts.letters
  rw [sound.failEvery] at delivered letters
  refine ⟨generated, placed, next, seen, sound.supplies.generates, sound.supplies.submitted,
    sound.supplies.ordered, accounts.ordered, (accounts.recalled.history _ _).1, ?_, delivered, letters, ?_⟩
  · intro record member
    rcases List.mem_append.mp member with own | passed
    · exact reported.covered record own
    · exact accounts.missed record passed
  · rw [← reported.statuses, ← reported.letters]

theorem supervisor_exactly_once_first :
    ∃ node after : Pipeline memoryStore, Supervisor.Starts .default node ∧
      Relation.TransGen Supervisor.Tick node after ∧
      ∃ generated placed next seen,
        RecordGenerator.nextRecords (List.length generated) supervisorSource.generator =
          some (generated, after.source.generator) ∧
        placed.map Record.submitted = generated ∧ placed.Sublist (after.log loggingSink) ∧
        seen.Sublist ((after.log loggingSink).take next) ∧ Numbered 0 (after.log loggingSink) ∧
        Missed (after.pruned loggingSink) (placed ++ (after.log loggingSink).take next) seen ∧
        after.sink.delivered = FailingSink.accepted 500 seen ∧
        Pipeline.Letters loggingSink (FailingSink.poisoned 500 seen) after.dlq.records ∧
        after.registry =
          ⟨[sourceStatus generated.length, Supervisor.sinkStatus seen next], after.dlq.records⟩ := by
  obtain ⟨node, after, starts, tick⟩ := Supervisor.first_tick
  exact ⟨node, after, starts, tick, supervisor_exactly_once starts tick⟩

end ConnectForge.Node
