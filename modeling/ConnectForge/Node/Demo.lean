import ConnectForge.Infra.Retention
import ConnectForge.Node.Progress
import ConnectForge.Node.Supervisor

namespace ConnectForge.Node

open Data Infra Interaction

/-! The connector demo: fill a new topic from a generator, drain it into a sink,
print the counts. -/

structure DemoArgs where
  records : Nat
  keys : UInt64
  failEvery : Nat

/-- What the demo prints, but for times. -/
structure DemoOutput where
  topic : String
  sourced : Nat
  delivered : Nat
  deadLettered : Nat
  dlqSize : Nat
deriving DecidableEq

def demoProducer (topic : TopicName) : SourceRuntime where
  id := ⟨"demo-source", by decide⟩
  topic
  partition := 0

def demoSink (topic : TopicName) : SinkRuntime where
  id := ⟨"demo-sink", by decide⟩
  topic
  partition := 0
  config := .default

def demoSource (args : DemoArgs) : GeneratorSource := .new args.records 500 args.keys 0x00C0FFEE

/-- A run of the demo over a store, to its end. -/
def DemoRun {model : LogStoreModel} (args : DemoArgs) (topic : TopicName) (broker : Broker model)
    (drained : Pipeline model) (output : DemoOutput) : Prop :=
  ∃ created counts sourced reports,
    Ends Broker.Answers (LogConfig.default.createTopic topic 1 .default) broker (.ok ()) created ∧
    Repeats (Amid (Pipeline.Moves (Pipeline.Alone model)) Pipeline.Sources) (demoProducer topic).runOnce
      (fun count => count = 0) (.fresh created (demoSource args) args.failEvery) counts sourced ∧
    Repeats (Amid (Pipeline.Moves (Pipeline.Alone model)) Pipeline.Sinks) (demoSink topic).runOnce
      (fun report => report.polled = 0) sourced reports drained ∧
    output = {
      topic := topic.asStr
      sourced := sourced.produced
      delivered := (reports.dropLast.map DeliveryReport.delivered).sum
      deadLettered := (reports.dropLast.map DeliveryReport.deadLettered).sum
      dlqSize := drained.dlq.records.length }

variable {model : LogStoreModel} {broker : Broker model} {args : DemoArgs} {topic : TopicName}
  {drained : Pipeline model} {output : DemoOutput}

theorem demo_filled {created : Broker model} (fresh : created.Created topic 1) (args : DemoArgs) :
    (Pipeline.fresh created (demoSource args) args.failEvery).Filled (demoProducer topic)
      (demoSource args).generator args.records :=
  @Pipeline.Filled.fresh _ (demoProducer topic) created fresh (demoSource args) (Nat.zero_lt_succ _) _

/-- What the sink starts from once the source is done. -/
theorem sourced_accounts {created : Broker model} {sourced : Pipeline model}
    (filled : sourced.Filled (demoProducer topic) (demoSource args).generator args.records)
    (frame : sourced = { Pipeline.fresh created (demoSource args) args.failEvery with
      broker := sourced.broker
      source := sourced.source
      produced := sourced.produced }) :
    sourced.Accounts (demoSink topic) 0 [] := by
  rw [frame]
  refine ⟨filled.recalled, ⟨.inl rfl, none, rfl, rfl⟩, Nat.zero_le _, List.nil_sublist _, ?_, rfl, .nil, rfl,
    rfl⟩
  intro record member
  simp at member

/-- What a run of the demo has done, and what it prints. -/
structure DemoAccounts (args : DemoArgs) (topic : TopicName) (drained : Pipeline model)
    (output : DemoOutput) : Prop where
  stream : ∃ last, RecordGenerator.nextRecords args.records (demoSource args).generator =
    some ((drained.log (demoSink topic)).map Record.submitted, last)
  numbered : Numbered 0 (drained.log (demoSink topic))
  retained : drained.pruned (demoSink topic) ≤ args.records
  delivered : drained.sink.delivered = FailingSink.accepted args.failEvery
    ((drained.log (demoSink topic)).drop (drained.pruned (demoSink topic)))
  letters : Pipeline.Letters (demoSink topic) (FailingSink.poisoned args.failEvery
    ((drained.log (demoSink topic)).drop (drained.pruned (demoSink topic)))) drained.dlq.records
  output : output = {
    topic := topic.asStr
    sourced := args.records
    delivered := drained.sink.delivered.length
    deadLettered := drained.dlq.records.length
    dlqSize := drained.dlq.records.length }

theorem letters_length {runtime : SinkRuntime} {records : List Record} {letters : List DeadLetterRecord}
    (wrote : Pipeline.Letters runtime records letters) : letters.length = records.length :=
  (List.Forall₂.length_eq wrote).symm

theorem DemoRun.accounts (run : DemoRun args topic broker drained output) (recalled : broker.Recalled) :
    DemoAccounts args topic drained output := by
  obtain ⟨created, counts, sourced, reports, creates, sources, drains, rfl⟩ := run
  have fresh := Broker.createTopic_created recalled Nat.one_ne_zero creates
  obtain ⟨filled, empty, frame⟩ := (demo_filled fresh args).fill sources
  have start := sourced_accounts filled frame
  have limit : sourced.sink.failEvery = args.failEvery := by rw [frame]; rfl
  obtain ⟨records, next, accounts, whole, delivered, dead, same, given, pruned⟩ :=
    start.drain_alone (Nat.zero_lt_succ _) (by simp) drains
  rw [List.nil_append] at accounts whole
  have size : (sourced.log (demoSink topic)).length = args.records := by
    have produced := filled.produced
    have remaining := filled.remaining
    change sourced.produced = (sourced.log (demoSink topic)).length at produced
    omega
  obtain ⟨numbered, bound⟩ := start.recalled.history topic 0
  have took := accounts.delivered
  have wrote := accounts.letters
  rw [same, limit, whole] at took wrote
  rw [limit, whole] at delivered dead
  refine ⟨⟨sourced.source.generator, ?_⟩, ?_, ?_, ?_, ?_, ?_⟩
  · rw [given, ← size]
    exact filled.generates
  · rw [given]
    exact numbered
  · rw [pruned, ← size]
    exact bound
  · rw [given, pruned]
    exact took
  · rw [given, pruned]
    exact wrote
  · rw [delivered, dead, took, letters_length wrote, filled.produced]
    exact congrArg (fun count => DemoOutput.mk _ count _ _ _) size

/-- The demo ends on any store that serves. -/
theorem demo_runs (serves : model.Serves) (args : DemoArgs) (topic : TopicName)
    (bounded : args.records < u64Modulus) :
    ∃ drained output, DemoRun args topic (.new model) drained output := by
  obtain ⟨created, creates⟩ := @Broker.createTopic_serves _ serves .default topic 1 .default Nat.one_ne_zero rfl
    (by decide)
  have fresh := Broker.createTopic_created .new Nat.one_ne_zero creates
  have filled := demo_filled fresh args
  have has : created.Has topic 0 := fresh.has 0 Nat.one_pos
  obtain ⟨counts, sourced, sources, has'⟩ :=
    filled.fills serves bounded (show 32 ≤ maxPayloadBytes by decide) has
  obtain ⟨filled', _, frame⟩ := filled.fill sources
  obtain ⟨reports, drained, drains⟩ := (sourced_accounts filled' frame).drains serves has'
  exact ⟨drained, _, created, counts, sourced, reports, creates, sources, drains, rfl⟩

/-- The counts of a run over records that are retained from an offset on. -/
def demoOutput (args : DemoArgs) (topic : TopicName) (start : Nat) : DemoOutput :=
  let dead := if args.failEvery = 0 then 0
    else (args.records + args.failEvery - 1) / args.failEvery - (start + args.failEvery - 1) / args.failEvery
  {
    topic := topic.asStr
    sourced := args.records
    delivered := args.records - start - dead
    deadLettered := dead
    dlqSize := dead }

theorem DemoAccounts.counts (accounts : DemoAccounts args topic drained output) :
    output = demoOutput args topic (drained.pruned (demoSink topic)) := by
  obtain ⟨last, stream⟩ := accounts.stream
  have size := RecordGenerator.nextRecords_length stream
  rw [List.length_map] at size
  have sorted := FailingSink.length_sorted args.failEvery
    ((drained.log (demoSink topic)).drop (drained.pruned (demoSink topic)))
  have numbered := accounts.numbered.drop (drained.pruned (demoSink topic))
  rw [Nat.zero_add] at numbered
  have retained := accounts.retained
  have delivered := congrArg List.length accounts.delivered
  have letters := letters_length accounts.letters
  rw [List.length_drop, size] at sorted
  have dead : drained.dlq.records.length = if args.failEvery = 0 then 0
      else (args.records + args.failEvery - 1) / args.failEvery -
        (drained.pruned (demoSink topic) + args.failEvery - 1) / args.failEvery := by
    rw [letters]
    split
    next none => rw [none, FailingSink.poisoned_zero, List.length_nil]
    next some =>
      have multiples := FailingSink.length_poisoned numbered (Nat.pos_of_ne_zero some)
      rw [List.length_drop, size, Nat.add_sub_cancel' retained] at multiples
      omega
  rw [accounts.output, demoOutput, ← dead]
  congr 1
  omega

/-- On a fresh store that serves the demo can end without an error, and however it
does it has accounted for all of its stream: the records that the store still retains
were delivered, but for the poison among them, which is in the dead-letter queue, and
the counts it prints say so. -/
theorem demo_total {model : LogStoreModel} (serves : model.Serves) (args : DemoArgs) (topic : TopicName)
    (bounded : args.records < u64Modulus) :
    (∃ drained output, DemoRun args topic (.new model) drained output) ∧
      ∀ drained output, DemoRun args topic (.new model) drained output →
        DemoAccounts args topic drained output ∧
        output = demoOutput args topic (drained.pruned (demoSink topic)) := by
  refine ⟨demo_runs serves args topic bounded, ?_⟩
  intro drained output run
  have accounts := run.accounts .new
  exact ⟨accounts, accounts.counts⟩

/-- The demo with five records on the file store. -/
theorem demo_total_five :
    (∃ drained output, DemoRun ⟨5, 2, 2⟩ connectorDemo (.new fileStore) drained output) ∧
      ∀ drained output, DemoRun ⟨5, 2, 2⟩ connectorDemo (.new fileStore) drained output →
        DemoAccounts ⟨5, 2, 2⟩ connectorDemo drained output ∧
        output = demoOutput ⟨5, 2, 2⟩ connectorDemo (drained.pruned (demoSink connectorDemo)) :=
  demo_total fileStore_serves ⟨5, 2, 2⟩ connectorDemo (by decide)

section Memory

/-! In memory, retention prunes to the record. -/

/-- Every partition of a store holds what one retention policy lets it. -/
def Held (retention : RetentionPolicy) (store : MemoryLogStore) : Prop :=
  store.topics.All fun state => state.config.retention = retention ∧
    ∀ part ∈ state.partitions, Partition.Holds retention part

theorem Held.handle {retention : RetentionPolicy} {store after : MemoryLogStore} {request : StoreCall}
    {answer : request.Answer} (held : Held retention store)
    (creates : ∀ config, request = .createTopic config → config.retention = retention)
    (called : store.handle request = some (answer, after)) : Held retention after := by
  cases request with
  | createTopic config =>
      have created := store.createTopic_after config
      rw [Option.some.inj called] at created
      rcases created with rfl | rfl
      · exact held
      · refine held.insert _ ⟨creates config rfl, ?_⟩
        intro part member
        rw [List.eq_of_mem_replicate member]
        exact .default retention
  | append topic partition records timestamp =>
      rcases MemoryLogStore.append_cases called with ⟨_, rfl⟩ |
        ⟨state, part, materialized, found, here, numbers, _, rfl⟩
      · exact held
      · obtain ⟨same, holds⟩ := held.find? found
        refine held.insert _ ⟨same, ?_⟩
        intro other member
        rcases List.mem_or_eq_of_mem_set member with old | rfl
        · exact holds other old
        · rw [same]
          exact ((holds part (List.mem_of_getElem? here)).append materialized).1
  | fetch topic partition start max =>
      obtain rfl := MemoryLogStore.fetch_after (Option.some.inj called)
      exact held
  | topics | partitionCount topic | stats =>
      cases called
      exact held

theorem Held.trimmed {retention : RetentionPolicy} {broker : Broker memoryStore}
    (held : Held retention broker.store) (bounded : retention.maxRecords ≠ 0) {partition : Nat}
    (has : broker.Has topic partition) :
    broker.trimmed topic partition =
      (broker.given topic partition).length - retention.maxRecords := by
  obtain ⟨view, log, recalls, known⟩ := has
  obtain ⟨history, explains, given⟩ := recalls.explained topic partition log known
  rw [recalls.trimmed, known, ← given, ← explains.next]
  rcases partition_shown recalls.shows topic partition with ⟨_, there⟩ |
    ⟨state, shown, here, there, _, ⟨_, missing⟩ | ⟨part, log', kept, seen, keeps⟩⟩
  · rw [StoreView.log?, there] at known
    cases known
  · rw [StoreView.log?, there, Option.bind_some, missing] at known
    cases known
  · rw [StoreView.log?, there, Option.bind_some, seen] at known
    cases known
    have start := ((held.find? here).2 part (List.mem_of_getElem? kept)).start
    rw [if_neg bounded, keeps.start, keeps.next] at start
    simpa using start

theorem Held.created {retention : RetentionPolicy} {engine : LogConfig} {name : TopicName} {partitions : Nat}
    {broker after : Broker memoryStore} (held : Held retention broker.store)
    (ended : Ends Broker.Answers (engine.createTopic name partitions retention) broker (.ok ()) after) :
    Held retention after.store := by
  have makes := makes_createTopic_own
    (fun call => ∀ config, call = .store (.createTopic config) → config.retention = retention)
    engine name partitions retention (by intro config impossible; cases impossible)
    (by
      rintro config count built _ same
      cases same
      rw [(TopicConfig.new_eq built).1])
    (by intro event config impossible; cases impossible)
  refine ended.keeps (fun broker => Held retention broker.store) makes ?_ held
  intro request before answer later permitted held answered
  cases request with
  | store request =>
      refine held.handle ?_ answered.1
      rintro config rfl
      exact permitted config rfl
  | nextSlot =>
      obtain ⟨_, rfl⟩ := answered
      exact held
  | publish event =>
      obtain ⟨_, rfl⟩ := answered
      exact held
  | tryAcquire count =>
      cases answered
      exact held
  | now =>
      cases answered
      exact held

theorem Held.sources {retention : RetentionPolicy} {node after : Pipeline memoryStore} {request : SourceCall}
    {answer : request.Answer} (held : Held retention node.broker.store)
    (answered : Pipeline.Sources request node answer after) : Held retention after.broker.store := by
  cases request with
  | append topic partition records timestamp =>
      obtain ⟨broker, ⟨stored, _⟩, rfl⟩ := answered
      exact held.handle (by rintro config impossible; cases impossible) stored
  | poll =>
      obtain ⟨source, _, rfl⟩ := answered
      exact held
  | now | addProduced count =>
      cases answered
      exact held

theorem sources_others {node after : Pipeline model} {request : SourceCall} {answer : request.Answer}
    (answered : Pipeline.Sources request node answer after) : node.broker.Others after.broker := by
  cases request with
  | append topic partition records timestamp =>
      obtain ⟨broker, stored, rfl⟩ := answered
      exact .single ⟨_, _, stored⟩
  | poll =>
      obtain ⟨source, _, rfl⟩ := answered
      exact .refl
  | now | addProduced count =>
      cases answered
      exact .refl

/-- A relation that all calls of a source keep holds along its loop. -/
theorem fill_along (related : Pipeline model → Pipeline model → Prop) (reflexive : ∀ node, related node node)
    (transitive : ∀ {first second third}, related first second → related second third →
      related first third)
    (calls : ∀ {request node answer after}, Pipeline.Sources request node answer after → related node after)
    {producer : SourceRuntime} {node after : Pipeline model} {counts : List Nat}
    (repeats : Repeats (Amid (Pipeline.Moves (Pipeline.Alone model)) Pipeline.Sources) producer.runOnce
      (fun count => count = 0) node counts after) : related node after := by
  apply repeats.along related transitive
  intro world value later ended
  apply ended.along related reflexive transitive _ calls
  rintro world moved ⟨broker, along, rfl⟩
  rw [Pipeline.alone_same along]
  exact reflexive world

theorem memory_start {drained : Pipeline memoryStore}
    (run : DemoRun args topic (.new memoryStore) drained output) :
    drained.pruned (demoSink topic) = args.records - 1_000_000 := by
  obtain ⟨created, counts, sourced, reports, creates, sources, drains, rfl⟩ := run
  have fresh := Broker.createTopic_created .new Nat.one_ne_zero creates
  obtain ⟨filled, empty, frame⟩ := (demo_filled fresh args).fill sources
  obtain ⟨_, _, _, _, _, _, _, _, pruned⟩ :=
    (sourced_accounts filled frame).drain_alone (Nat.zero_lt_succ _) (by simp) drains
  have nothing : Held .default (Broker.new memoryStore).store := by
    intro entry member
    cases member
  have held := fill_along (fun node after => Held .default node.broker.store → Held .default after.broker.store)
    (fun _ held => held) (by intro _ _ _ left right held; exact right (left held))
    (fun answered held => held.sources answered) sources (nothing.created creates)
  have moves := fill_along (fun node after => node.broker.Others after.broker) (fun _ => .refl)
    (fun left right => left.trans right) sources_others sources
  have has : sourced.broker.Has topic 0 := (fresh.has 0 Nat.one_pos).others moves
  have size : (sourced.broker.given topic 0).length = args.records := by
    have produced := filled.produced
    have remaining := filled.remaining
    change sourced.produced = (sourced.broker.given topic 0).length at produced
    omega
  rw [pruned, ← size]
  exact held.trimmed (by decide) has

/-- In memory the demo ends, and prints just this: all records were sourced, the
last million of them were delivered or dead-lettered, and every `failEvery`-th of
those, counted from offset zero, was dead-lettered. -/
theorem demo_memory (args : DemoArgs) (topic : TopicName) (bounded : args.records < u64Modulus) :
    (∃ drained output, DemoRun args topic (.new memoryStore) drained output) ∧
      ∀ drained output, DemoRun args topic (.new memoryStore) drained output →
        output = demoOutput args topic (args.records - 1_000_000) := by
  refine ⟨demo_runs memoryStore_serves args topic bounded, ?_⟩
  intro drained output run
  rw [← memory_start run]
  exact (run.accounts .new).counts

/-- The demo with its default arguments. -/
theorem demo_memory_default :
    (∃ drained output, DemoRun ⟨100_000, 1_000, 1_000⟩ connectorDemo (.new memoryStore) drained output) ∧
      ∀ drained output, DemoRun ⟨100_000, 1_000, 1_000⟩ connectorDemo (.new memoryStore) drained output →
        output = ⟨"connector-demo", 100_000, 99_900, 100, 100⟩ :=
  demo_memory ⟨100_000, 1_000, 1_000⟩ connectorDemo (by decide)

end Memory

end ConnectForge.Node
