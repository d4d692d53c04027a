import ConnectForge.Node.Alone

namespace ConnectForge.Node

open Data Infra Interaction

/-! Over a store that serves, every round of the connectors can be made. -/

/-- The calls of a sink that ask nothing of the store. -/
def Local : SinkCall → Prop
  | .fetch _ _ _ _ => False
  | _ => True

section Locals

variable (runtime : SinkRuntime)

theorem makes_resolveCheckpoint : runtime.resolveCheckpoint.Makes Local := by
  apply Program.Makes.bind (makes_ask trivial)
  intro cursor
  cases cursor with
  | some cached => trivial
  | none =>
      apply Program.Makes.bind (makes_ask trivial)
      intro loaded
      cases loaded with
      | error reason => trivial
      | ok found => exact (makes_ask trivial).bind fun _ => trivial

theorem makes_commitUnder (guarantee : DeliveryGuarantee) (offset : Nat) :
    (runtime.commitUnder guarantee offset).Makes Local := by
  unfold SinkRuntime.commitUnder
  split
  · apply Program.Makes.bind (makes_ask trivial)
    intro saved
    cases saved with
    | error reason => trivial
    | ok done => exact (makes_ask trivial).bind fun _ => trivial
  · trivial

theorem makes_deliverOne (record : Record) : (runtime.deliverOne record).Makes Local := by
  apply Program.Makes.bind (makes_retryIf _ (makes_ask trivial))
  intro delivered
  cases delivered with
  | error reason => trivial
  | ok done => trivial

theorem makes_deadLetter (record : Record) (reason : String) :
    (runtime.deadLetter record reason).Makes Local := by
  apply Program.Makes.bind (makes_ask trivial)
  intro failedAt
  apply Program.Makes.bind (makes_ask trivial)
  intro stored
  cases stored with
  | error reason => trivial
  | ok done => trivial

theorem makes_deliverAll (records : List Record) (delivered dead : Nat) :
    (runtime.deliverAll records delivered dead).Makes Local := by
  induction records generalizing delivered dead with
  | nil => trivial
  | cons record rest ih =>
      apply (makes_deliverOne runtime record).bind
      intro result
      cases result with
      | ok done => exact (makes_ask trivial).bind fun _ => ih _ _
      | error reason =>
          apply (makes_deadLetter runtime record reason).bind
          intro stored
          cases stored with
          | error reason => trivial
          | ok done => exact (makes_ask trivial).bind fun _ => ih _ _

theorem makes_processBatch (start : Nat) (records : List Record) :
    (runtime.processBatch start records).Makes Local := by
  unfold SinkRuntime.processBatch
  split
  · trivial
  apply (makes_commitUnder runtime _ _).bind
  intro early
  cases early with
  | error reason => trivial
  | ok done =>
      apply (makes_deliverAll runtime _ _ _).bind
      intro counts
      cases counts with
      | error reason => trivial
      | ok counts =>
          apply (makes_commitUnder runtime _ _).bind
          intro late
          cases late with
          | error reason => trivial
          | ok done => trivial

theorem makes_status : runtime.status.Makes Local := by
  apply Program.Makes.bind (makes_ask trivial)
  intro processed
  apply Program.Makes.bind (makes_ask trivial)
  intro dead
  apply (makes_resolveCheckpoint runtime).bind
  intro resolved
  cases resolved with
  | error reason => trivial
  | ok checkpoint => trivial

end Locals

namespace Pipeline

variable {model : LogStoreModel} {node : Pipeline model} {runtime : SinkRuntime}
  {position : Nat} {seen : List Record}

theorem local_answered (others : Broker model → Broker model → Prop) (request : SinkCall)
    (node : Pipeline model) (here : Local request) :
    ∃ answer after, Amid (Moves others) Sinks request node answer after := by
  have sinks : ∃ answer after, Sinks request node answer after := by
    cases request with
    | fetch topic partition start max => cases here
    | readCursor => exact ⟨_, _, rfl, rfl⟩
    | writeCursor offset => exact ⟨(), _, rfl⟩
    | load connector topic partition => exact ⟨_, _, rfl, rfl⟩
    | save checkpoint => exact ⟨_, _, rfl, rfl⟩
    | deliver records => exact ⟨_, _, rfl, rfl⟩
    | deadLetter letter => exact ⟨_, _, rfl, rfl⟩
    | now => exact ⟨.epoch, _, rfl⟩
    | addProcessed => exact ⟨(), _, rfl⟩
    | addDead => exact ⟨(), _, rfl⟩
    | readProcessed => exact ⟨_, _, rfl, rfl⟩
    | readDead => exact ⟨_, _, rfl, rfl⟩
  obtain ⟨answer, after, answered⟩ := sinks
  exact ⟨answer, after, node, .refl node, answered⟩

theorem status_runs (others : Broker model → Broker model → Prop)
    (stands : node.Stands runtime position) :
    ∃ status after, Ends (Amid (Moves others) Sinks) runtime.status node (.ok status) after := by
  obtain ⟨result, after, ended⟩ := ends_total (makes_status runtime) (local_answered others) node
  cases result with
  | ok status => exact ⟨status, after, ended⟩
  | error reason =>
      obtain ⟨processed, first, ⟨moved, ⟨broker, _, rfl⟩, _, rfl⟩, rest⟩ := ends_ask ended
      obtain ⟨dead, second, ⟨moved, ⟨later, _, rfl⟩, _, rfl⟩, rest⟩ := ends_ask rest
      obtain ⟨resolved, third, resolves, rest⟩ := ends_bind rest
      have here : Stands runtime { node with broker := later } position := ⟨stands.cursor, stands.loads⟩
      obtain ⟨rfl, _⟩ := resolveCheckpoint_ends here resolves
      cases (ends_done rest).1

theorem sinkRound_runs (serves : model.Serves) (stands : node.Stands runtime position)
    (has : node.broker.Has runtime.topic runtime.partition) :
    ∃ report after, Ends (Amid (Moves (Alone model)) Sinks) runtime.runOnce node (.ok report) after := by
  obtain ⟨start, resolved, resolves⟩ :=
    ends_total (makes_resolveCheckpoint runtime) (local_answered (Alone model)) node
  obtain ⟨rfl, broker, along, rfl⟩ := resolveCheckpoint_ends stands resolves
  have same := alone_same along
  subst same
  obtain ⟨view, log, recalls, known⟩ := has
  obtain ⟨found, store, fetched⟩ :=
    serves.fetches position runtime.config.batchSize recalls.shows known
  let later : Pipeline model :=
    { node with broker := { node.broker with store }, cursor := some position }
  have reads : Amid (Moves (Alone model)) Sinks
      (.fetch runtime.topic runtime.partition position runtime.config.batchSize)
      { node with cursor := some position } (.ok found) later :=
    ⟨_, .refl _, later.broker, ⟨fetched, rfl, (List.append_nil _).symm, rfl⟩, rfl⟩
  have here : later.Stands runtime position := ⟨.inr rfl, stands.loads⟩
  obtain ⟨result, after, ended⟩ := ends_total (makes_processBatch runtime position found.records)
    (local_answered (Alone model)) later
  obtain ⟨rfl, _⟩ := processBatch_ends here rfl ended
  exact ⟨_, after, Ends.bind resolves (Ends.bind (Ends.ask reads) ended)⟩

/-- Where the sink goes on, read off its state. -/
def standing (runtime : SinkRuntime) (node : Pipeline model) : Nat :=
  node.cursor.getD
    (((node.checkpoints.load runtime.id runtime.topic runtime.partition).toOption.getD none).getD Offset.zero)

theorem Stands.standing (stands : node.Stands runtime position) : node.standing runtime = position := by
  obtain ⟨found, loads, same⟩ := stands.loads
  rcases stands.cursor with none | some
  · simp [Pipeline.standing, none, loads, same, Except.toOption]
  · simp [Pipeline.standing, some]

theorem Accounts.drains (serves : model.Serves) (accounts : node.Accounts runtime position seen)
    (has : node.broker.Has runtime.topic runtime.partition) :
    ∃ reports after, Repeats (Amid (Moves (Alone model)) Sinks) runtime.runOnce
      (fun report => report.polled = 0) node reports after := by
  have progress := @repeats_of_progress _ _ _ (Pipeline model) _ (Amid (Moves (Alone model)) Sinks)
    runtime.runOnce (fun report => report.polled = 0)
    (fun node => (∃ position seen, node.Accounts runtime position seen) ∧
      node.broker.Has runtime.topic runtime.partition)
    (fun node => (node.log runtime).length - node.standing runtime)
  obtain ⟨reports, after, repeats, _⟩ := progress (by
    rintro node ⟨⟨position, seen, accounts⟩, has⟩
    obtain ⟨report, after, ended⟩ := sinkRound_runs serves accounts.stands has
    obtain ⟨records, next, reading, rfl, given, pruned⟩ := accounts.round_alone ended
    obtain ⟨moves, last⟩ := reading.moves False.elim
    refine ⟨_, after, ended, ⟨⟨next, seen ++ records, reading.accounts⟩, has.others (moves.trans last)⟩, ?_⟩
    intro go
    have some : records ≠ [] := by
      rintro rfl
      exact go rfl
    have further := (reading.above (accounts.recalled.history _ _).1).2 some
    have within := reading.accounts.within
    rw [given] at within
    rw [given, accounts.stands.standing, reading.accounts.stands.standing]
    omega) ⟨⟨position, seen, accounts⟩, has⟩
  exact ⟨reports, after, repeats⟩

variable {producer : SourceRuntime} {first : RecordGenerator} {total : Nat}

theorem sourceRound_runs (serves : model.Serves)
    (room : (node.broker.given producer.topic producer.partition).length +
      Nat.min node.source.remaining node.source.batchSize < u64Modulus)
    (size : node.source.generator.payloadBytes ≤ maxPayloadBytes)
    (has : node.broker.Has producer.topic producer.partition) :
    ∃ count after, Ends (Amid (Moves (Alone model)) Sources) producer.runOnce node (.ok count) after := by
  obtain ⟨records, source, polls, length, _⟩ := node.source.poll_takes size
  have polled : Amid (Moves (Alone model)) Sources .poll node (.ok records) { node with source } :=
    ⟨_, .refl _, source, polls, rfl⟩
  cases records with
  | nil => exact ⟨0, _, Ends.bind (Ends.ask polled) .done⟩
  | cons head rest =>
      obtain ⟨_, same, continues, _⟩ := GeneratorSource.poll_continues polls
      cases same
      obtain ⟨view, log, recalls, known⟩ := has
      obtain ⟨history, explains, given⟩ := recalls.explained _ _ log known
      have next := explains.next
      have fits := RecordGenerator.nextRecords_fits continues
      obtain ⟨outcome, store, appended⟩ := serves.appends .epoch recalls.shows known (List.cons_ne_nil _ _) fits
        (by rw [length, next, given]; exact room)
      let stored : Pipeline model :=
        { node with
          source
          broker := { node.broker with
            store
            appended := node.broker.appended ++
              [⟨producer.topic, producer.partition, head :: rest, outcome.records⟩] } }
      have timed : Amid (Moves (Alone model)) Sources .now { node with source } .epoch { node with source } :=
        ⟨_, .refl _, rfl⟩
      have appends : Amid (Moves (Alone model)) Sources
          (.append producer.topic producer.partition (head :: rest) .epoch) { node with source }
          (.ok outcome) stored :=
        ⟨_, .refl _, stored.broker, ⟨appended, rfl, rfl, rfl⟩, rfl⟩
      have counts : Amid (Moves (Alone model)) Sources (.addProduced (head :: rest).length) stored ()
          { stored with produced := stored.produced + (head :: rest).length } :=
        ⟨_, .refl _, rfl⟩
      exact ⟨_, _, Ends.bind (Ends.ask polled) (Ends.bind (Ends.ask timed)
        (Ends.bind (Ends.ask appends) (Ends.bind (Ends.ask counts) .done)))⟩

theorem Filled.fills (serves : model.Serves) (filled : node.Filled producer first total)
    (room : total < u64Modulus) (size : node.source.generator.payloadBytes ≤ maxPayloadBytes)
    (has : node.broker.Has producer.topic producer.partition) :
    ∃ counts after, Repeats (Amid (Moves (Alone model)) Sources) producer.runOnce (fun count => count = 0)
      node counts after ∧ after.broker.Has producer.topic producer.partition := by
  have progress := @repeats_of_progress _ _ _ (Pipeline model) _ (Amid (Moves (Alone model)) Sources)
    producer.runOnce (fun count => count = 0)
    (fun node => node.Filled producer first total ∧
      node.source.generator.payloadBytes ≤ maxPayloadBytes ∧
      node.broker.Has producer.topic producer.partition)
    (fun node => node.source.remaining)
  obtain ⟨counts, after, repeats, holds⟩ := progress (by
    rintro node ⟨filled, size, has⟩
    have fits : (node.broker.given producer.topic producer.partition).length +
        Nat.min node.source.remaining node.source.batchSize < u64Modulus := by
      have left := filled.remaining
      have produced := filled.produced
      have taken : Nat.min node.source.remaining node.source.batchSize ≤ node.source.remaining :=
        Nat.min_le_left _ _
      omega
    obtain ⟨count, after, ended⟩ := sourceRound_runs serves fits size has
    obtain ⟨filled', less, _, _⟩ := filled.round ended
    obtain ⟨records, source, broker, polls, _, rfl, appends⟩ := sourceRound_ends ended
    refine ⟨count, _, ended, ⟨filled', ?_, ?_⟩, ?_⟩
    · rw [GeneratorSource.poll_payload polls size]
      exact size
    · rcases appends with ⟨_, along⟩ | ⟨moment, timestamp, outcome, later, along, answered, final⟩
      · exact has.others (others_calls False.elim along)
      · have appending : moment.Others later := .single ⟨_, _, answered⟩
        exact has.others (((others_calls False.elim along).trans appending).trans
          (others_calls False.elim final))
    · intro go
      omega) ⟨filled, size, has⟩
  exact ⟨counts, after, repeats, holds.2.2⟩

end Pipeline

end ConnectForge.Node
