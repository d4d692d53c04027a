import ConnectForge.Node.Pipeline

namespace ConnectForge

open Data Infra Interaction

namespace Node

/-- A record that was not seen was pruned. -/
def Missed (trimmed : Nat) (records seen : List Record) : Prop :=
  ∀ record ∈ records, record ∈ seen ∨ record.offset < trimmed

section Reading

variable {given seen : List Record} {position trimmed : Nat}

theorem Missed.later {records : List Record} {later : Nat} (missed : Missed trimmed records seen)
    (grows : trimmed ≤ later) : Missed later records seen := by
  intro record member
  cases missed record member with
  | inl seen => exact .inl seen
  | inr pruned => exact .inr (Nat.lt_of_lt_of_le pruned grows)

/-- Between a position and what a reader gets there is nothing but pruned records. -/
theorem Missed.skip (numbered : Numbered 0 given) (missed : Missed trimmed (given.take position) seen) :
    Missed trimmed (given.take (Nat.max position trimmed)) seen := by
  intro record member
  obtain ⟨index, found⟩ := List.mem_iff_getElem?.mp member
  have bound := (List.getElem?_eq_some_iff.mp found).1
  rw [List.length_take] at bound
  rw [List.getElem?_take_of_lt (by omega)] at found
  have offset := numbered.getElem? found
  by_cases passed : index < position
  · apply missed record
    apply List.mem_of_getElem?
    rw [List.getElem?_take_of_lt passed]
    exact found
  · have below : index < Nat.max position trimmed := by omega
    rcases Nat.le_total position trimmed with low | high
    · have cut : Nat.max position trimmed = trimmed := Nat.max_eq_right low
      exact .inr (by omega)
    · have cut : Nat.max position trimmed = position := Nat.max_eq_left high
      omega

/-- Reading on from a position keeps the account of what was seen. -/
theorem Missed.read (numbered : Numbered 0 given) (within : position ≤ given.length)
    (ordered : seen.Sublist (given.take position))
    (missed : Missed trimmed (given.take position) seen) {records : List Record} {max : Nat}
    (reads : records = (given.drop (Nat.max position trimmed)).take max) :
    nextAfter records position ≤ given.length ∧
      (seen ++ records).Sublist (given.take (nextAfter records position)) ∧
      Missed trimmed (given.take (nextAfter records position)) (seen ++ records) := by
  by_cases empty : records = []
  · subst empty
    rw [List.append_nil]
    exact ⟨within, ordered, missed⟩
  · have follow : Numbered (Nat.max position trimmed) records := by
      have dropped := (numbered.drop (Nat.max position trimmed)).take max
      rwa [Nat.zero_add, ← reads] at dropped
    have size := congrArg List.length reads
    rw [List.length_take, List.length_drop] at size
    have whole : (given.drop (Nat.max position trimmed)).take records.length = records := by
      rw [size, ← List.length_drop, ← List.take_eq_take_min, ← reads]
    rw [follow.nextAfter empty position, List.take_add, whole]
    have positive := List.length_pos_iff.mpr empty
    have early : (given.take position).Sublist (given.take (Nat.max position trimmed)) :=
      (List.take_prefix_take_left (Nat.le_max_left _ _)).sublist
    refine ⟨by omega, (ordered.trans early).append (List.Sublist.refl _), ?_⟩
    intro record member
    rcases List.mem_append.mp member with before | read
    · cases missed.skip numbered record before with
      | inl known => exact .inl (List.mem_append_left _ known)
      | inr pruned => exact .inr pruned
    · exact .inl (List.mem_append_right _ read)

/-- Who reads nothing has missed nothing but pruned records. -/
theorem Missed.idle (numbered : Numbered 0 given)
    (missed : Missed trimmed (given.take position) seen) {max : Nat} (positive : 0 < max)
    (reads : (given.drop (Nat.max position trimmed)).take max = []) : Missed trimmed given seen := by
  have size := congrArg List.length reads
  rw [List.length_take, List.length_drop, List.length_nil] at size
  have skipped := missed.skip numbered
  rwa [List.take_of_length_le (by omega)] at skipped

end Reading

namespace Pipeline

variable {model : LogStoreModel} {node after : Pipeline model} {runtime : SinkRuntime}
  {position : Nat} {seen : List Record}

/-- The records of the sink's partition, and how many of them are pruned. -/
abbrev log (node : Pipeline model) (runtime : SinkRuntime) : List Record :=
  node.broker.given runtime.topic runtime.partition

abbrev pruned (node : Pipeline model) (runtime : SinkRuntime) : Nat :=
  node.broker.trimmed runtime.topic runtime.partition

/-- The sink has seen records from below its position, each once and in order; the
sound ones were delivered and there is a letter for each of the others. -/
structure Accounts (runtime : SinkRuntime) (node : Pipeline model) (position : Nat)
    (seen : List Record) : Prop where
  recalled : node.broker.Recalled
  stands : node.Stands runtime position
  within : position ≤ (node.log runtime).length
  ordered : List.Sublist seen ((node.log runtime).take position)
  missed : Missed (node.pruned runtime) ((node.log runtime).take position) seen
  delivered : node.sink.delivered = FailingSink.accepted node.sink.failEvery seen
  letters : Letters runtime (FailingSink.poisoned node.sink.failEvery seen) node.dlq.records
  processed : node.processed = (FailingSink.accepted node.sink.failEvery seen).length
  dead : node.dead = (FailingSink.poisoned node.sink.failEvery seen).length

theorem take_given {broker later : Broker model} {topic : TopicName} {partition count : Nat}
    (moves : broker.Others later) (within : count ≤ (broker.given topic partition).length) :
    (later.given topic partition).take count = (broker.given topic partition).take count := by
  obtain ⟨more, grown⟩ := Broker.given_grows moves topic partition
  rw [← grown, List.take_append_of_le_length within]

/-- Others do not disturb the account. -/
theorem Accounts.others (accounts : node.Accounts runtime position seen)
    {broker : Broker model} (moves : node.broker.Others broker) :
    Accounts runtime { node with broker } position seen := by
  have same := take_given moves accounts.within
  refine { accounts with
    recalled := accounts.recalled.trans moves
    stands := ⟨accounts.stands.cursor, accounts.stands.loads⟩
    within := accounts.within.trans (Broker.given_grows moves _ _).length_le
    ordered := ?_
    missed := ?_ }
  · rw [same]
    exact accounts.ordered
  · rw [same]
    exact accounts.missed.later (accounts.recalled.trimmed_grows moves _ _)

theorem Accounts.elsewhere (accounts : node.Accounts runtime position seen) (source : GeneratorSource)
    (produced : Nat) (registry : ConnectorRegistry) :
    Accounts runtime { node with source, produced, registry } position seen :=
  { accounts with stands := ⟨accounts.stands.cursor, accounts.stands.loads⟩ }

/-- What a round of the sink did: it read on in the partition as it was at one
moment, and its account goes on after what it read. -/
structure Reading (others : Broker model → Broker model → Prop) (runtime : SinkRuntime)
    (node after : Pipeline model) (position : Nat) (seen records : List Record) (next : Nat)
    (moment : Broker model) : Prop where
  earlier : Relation.ReflTransGen others node.broker moment
  fetched : ∃ found later, Broker.Answers (.store (.fetch runtime.topic runtime.partition position
      runtime.config.batchSize)) moment (.ok found) later ∧ Relation.ReflTransGen others later after.broker
  reads : records = ((moment.given runtime.topic runtime.partition).drop
    (Nat.max position (moment.trimmed runtime.topic runtime.partition))).take runtime.config.batchSize
  ends : next = nextAfter records position
  accounts : after.Accounts runtime next (seen ++ records)
  frame : after = { node with
    broker := after.broker
    sink := { node.sink with delivered := after.sink.delivered }
    checkpoints := after.checkpoints
    dlq := after.dlq
    cursor := after.cursor
    processed := after.processed
    dead := after.dead }

section Rounds

variable {others : Broker model → Broker model → Prop}

theorem others_calls (within : ∀ {first second}, others first second → Broker.Calls first second)
    {broker later : Broker model} (moves : Relation.ReflTransGen others broker later) :
    broker.Others later := by
  induction moves with
  | refl => exact .refl
  | tail _ step ih => exact ih.tail (within step)

theorem Accounts.round (accounts : node.Accounts runtime position seen)
    (within : ∀ {first second}, others first second → Broker.Calls first second) {report : DeliveryReport}
    (ended : Ends (Amid (Moves others) Sinks) runtime.runOnce node (.ok report) after) :
    ∃ records next moment, Reading others runtime node after position seen records next moment ∧
      report = reportOf node.sink.failEvery records next := by
  obtain ⟨moment, found, later, along, fetched, reports, stands, checkpoints, broker, letters, more, wrote,
    rfl⟩ := sinkRound_ends accounts.stands ended
  have moves := others_calls within along
  have last := others_calls within more
  have fetches : moment.Others later := .single ⟨_, _, fetched⟩
  have here := accounts.others moves
  obtain ⟨numbered, pruned⟩ := here.recalled.history runtime.topic runtime.partition
  have reads := congrArg FetchResult.records (Broker.Recalled.reads here.recalled fetched)
  obtain ⟨below, ordered, missed⟩ := here.missed.read numbered here.within here.ordered reads
  have kept : Accounts runtime { node with
      broker := moment
      sink := { node.sink with
        delivered := node.sink.delivered ++ FailingSink.accepted node.sink.failEvery found.records }
      checkpoints
      dlq := { records := node.dlq.records ++ letters }
      cursor := some (nextAfter found.records position)
      processed := node.processed + (FailingSink.accepted node.sink.failEvery found.records).length
      dead := node.dead + (FailingSink.poisoned node.sink.failEvery found.records).length }
      (nextAfter found.records position) (seen ++ found.records) :=
    { recalled := here.recalled
      stands := ⟨stands.cursor, stands.loads⟩
      within := below
      ordered
      missed
      delivered := by simp [accounts.delivered]
      letters := by
        rw [FailingSink.poisoned_append]
        exact List.rel_append accounts.letters wrote
      processed := by simp [accounts.processed]
      dead := by simp [accounts.dead] }
  exact ⟨found.records, _, moment, {
    earlier := along
    fetched := ⟨found, later, fetched, more⟩
    reads
    ends := rfl
    accounts := kept.others (fetches.trans last)
    frame := rfl }, reports⟩

theorem Reading.moves {records : List Record} {next : Nat} {moment : Broker model}
    (reading : Reading others runtime node after position seen records next moment)
    (within : ∀ {first second}, others first second → Broker.Calls first second) :
    node.broker.Others moment ∧ moment.Others after.broker := by
  obtain ⟨found, later, fetched, more⟩ := reading.fetched
  have fetches : moment.Others later := .single ⟨_, _, fetched⟩
  exact ⟨others_calls within reading.earlier, fetches.trans (others_calls within more)⟩

end Rounds

/-- The sink is run until a round finds nothing: it has then seen all that was in
the partition at some moment of that round, but for what was pruned. -/
theorem Accounts.drain (accounts : node.Accounts runtime position seen)
    (positive : 0 < runtime.config.batchSize) {reports : List DeliveryReport}
    (drained : Repeats (Amid (Moves Broker.Calls) Sinks) runtime.runOnce (fun report => report.polled = 0)
      node reports after) :
    ∃ records next, after.Accounts runtime next (seen ++ records) ∧
      (reports.map DeliveryReport.delivered).sum =
        (FailingSink.accepted node.sink.failEvery records).length ∧
      (reports.map DeliveryReport.deadLettered).sum =
        (FailingSink.poisoned node.sink.failEvery records).length ∧
      after = { node with
        broker := after.broker
        sink := { node.sink with delivered := after.sink.delivered }
        checkpoints := after.checkpoints
        dlq := after.dlq
        cursor := after.cursor
        processed := after.processed
        dead := after.dead } ∧
      ∃ moment, node.broker.Others moment ∧ moment.Others after.broker ∧
        Missed (moment.trimmed runtime.topic runtime.partition)
          (moment.given runtime.topic runtime.partition) (seen ++ records) := by
  induction drained generalizing position seen with
  | last round stop =>
      obtain ⟨records, next, moment, reading, rfl⟩ := accounts.round id round
      have none : records = [] := List.eq_nil_of_length_eq_zero stop
      subst none
      obtain ⟨moves, last⟩ := reading.moves id
      have here := accounts.others moves
      refine ⟨[], next, reading.accounts, by simp [reportOf], by simp [reportOf], reading.frame, moment,
        moves, last, ?_⟩
      rw [List.append_nil]
      exact here.missed.idle (here.recalled.history _ _).1 positive reading.reads.symm
  | more round go rest ih =>
      obtain ⟨records, next, moment, reading, rfl⟩ := accounts.round id round
      obtain ⟨moves, last⟩ := reading.moves id
      have accounts' := reading.accounts
      have same := reading.frame
      obtain ⟨more, final, accounts'', delivered, dead, same', moment, moves', last', caught⟩ := ih accounts'
      rw [List.append_assoc] at accounts'' caught
      refine ⟨records ++ more, final, accounts'', ?_, ?_, ?_, moment, (moves.trans last).trans moves', last',
        caught⟩
      · rw [same] at delivered
        simp [reportOf, delivered]
      · rw [same] at dead
        simp [reportOf, dead]
      · rw [same', same]

/-- All the source has drawn from its generator is in the partition, once and in
order, with the records of others in between. -/
structure Supplies (producer : SourceRuntime) (first : RecordGenerator) (total : Nat)
    (node : Pipeline model) (generated : List ProduceRecord) (placed : List Record) : Prop where
  recalled : node.broker.Recalled
  generates : RecordGenerator.nextRecords generated.length first = some (generated, node.source.generator)
  produced : node.produced = generated.length
  remaining : node.source.remaining + node.produced = total
  ordered : placed.Sublist (node.broker.given producer.topic producer.partition)
  submitted : placed.map Record.submitted = generated

variable {producer : SourceRuntime} {first : RecordGenerator} {total : Nat}
  {generated : List ProduceRecord} {placed : List Record}

theorem Supplies.others (supplies : node.Supplies producer first total generated placed)
    {broker : Broker model} (moves : node.broker.Others broker) :
    Supplies producer first total { node with broker } generated placed :=
  { supplies with
    recalled := supplies.recalled.trans moves
    ordered := supplies.ordered.trans (Broker.given_grows moves _ _).sublist }

/-- A round of the source, as it shows from outside: it polls, and what it polled is
appended at one moment. -/
theorem sourceRound_ends {others : Broker model → Broker model → Prop} {count : Nat}
    (ended : Ends (Amid (Moves others) Sources) producer.runOnce node (.ok count) after) :
    ∃ records source broker, node.source.poll = some (.ok records, source) ∧ count = records.length ∧
      after = { node with broker, source, produced := node.produced + records.length } ∧
      (records = [] ∧ Relation.ReflTransGen others node.broker broker ∨
        ∃ moment timestamp outcome later, Relation.ReflTransGen others node.broker moment ∧
          Broker.Answers (.store (.append producer.topic producer.partition records timestamp)) moment
            (.ok outcome) later ∧ Relation.ReflTransGen others later broker) := by
  obtain ⟨answer, polled, ⟨moved, moves, source, polls, rfl⟩, rest⟩ := ends_call ended
  obtain ⟨broker, along, rfl⟩ := moves
  cases answer with
  | error reason => cases (ends_done rest).1
  | ok records =>
      cases records with
      | nil =>
          obtain ⟨same, rfl⟩ := ends_done rest
          exact ⟨[], source, broker, polls, Except.ok.inj same, rfl, .inl ⟨rfl, along⟩⟩
      | cons first others =>
          obtain ⟨timestamp, timed, ⟨moved, moves, rfl⟩, rest⟩ := ends_call rest
          obtain ⟨timed, more, rfl⟩ := moves
          obtain ⟨stored, appended, ⟨moved, moves, later, answered, rfl⟩, rest⟩ := ends_call rest
          obtain ⟨moment, most, rfl⟩ := moves
          cases stored with
          | error reason => cases (ends_done rest).1
          | ok outcome =>
              obtain ⟨_, counted, ⟨moved, moves, rfl⟩, rest⟩ := ends_call rest
              obtain ⟨last, final, rfl⟩ := moves
              obtain ⟨same, rfl⟩ := ends_done rest
              exact ⟨first :: others, source, last, polls, Except.ok.inj same, rfl,
                .inr ⟨moment, timestamp, outcome, later, (along.trans more).trans most, answered, final⟩⟩

theorem Supplies.round (supplies : node.Supplies producer first total generated placed) {count : Nat}
    (ended : Ends (Amid (Moves Broker.Calls) Sources) producer.runOnce node (.ok count) after) :
    ∃ records kept, after.Supplies producer first total (generated ++ records) (placed ++ kept) ∧
      count = records.length ∧ node.broker.Others after.broker ∧
      after = { node with broker := after.broker, source := after.source, produced := after.produced } := by
  obtain ⟨records, source, broker, polls, rfl, rfl, appends⟩ := sourceRound_ends ended
  obtain ⟨_, same, continues, size, remaining, _⟩ := GeneratorSource.poll_continues polls
  cases same
  have left := supplies.remaining
  have within : records.length ≤ node.source.remaining := size ▸ Nat.min_le_left _ _
  have generates := RecordGenerator.nextRecords_append supplies.generates continues
  rcases appends with ⟨none, along⟩ | ⟨moment, timestamp, outcome, later, along, answered, final⟩
  · subst none
    refine ⟨[], [], ⟨supplies.recalled.trans along, generates, ?_, ?_, ?_, ?_⟩, rfl, along, rfl⟩
    · simp [supplies.produced]
    · simp only [List.length_nil] at remaining ⊢
      omega
    · rw [List.append_nil]
      exact supplies.ordered.trans (Broker.given_grows along _ _).sublist
    · simp [supplies.submitted]
  · have moves : node.broker.Others moment := along
    have appending : moment.Others later := .single ⟨_, _, answered⟩
    have last : later.Others broker := final
    obtain ⟨grown, _, submitted⟩ := Broker.Recalled.appends (supplies.recalled.trans moves) answered
    refine ⟨records, outcome.records.map model.readBack,
      ⟨supplies.recalled.trans ((moves.trans appending).trans last), generates, ?_, ?_, ?_, ?_⟩, rfl,
      (moves.trans appending).trans last, rfl⟩
    · simp [supplies.produced]
    · simp only at remaining ⊢
      omega
    · have front := supplies.ordered.trans (Broker.given_grows moves _ _).sublist
      have whole := front.append (List.Sublist.refl (outcome.records.map model.readBack))
      rw [← grown] at whole
      exact whole.trans (Broker.given_grows last _ _).sublist
    · rw [List.map_append, supplies.submitted, List.map_map, ← submitted]
      congr 1
      exact List.map_congr_left fun record _ => model.readBack_submitted record

end Pipeline

end Node

end ConnectForge
