import ConnectForge.Broker.Serving
import ConnectForge.Node.Accounting

namespace ConnectForge

open Data Infra Interaction

theorem Broker.Recalled.fetch_same {model : LogStoreModel} {broker after : Broker model}
    (recalled : broker.Recalled) {topic : TopicName} {partition start max : Nat}
    {answer : Except PortError FetchResult}
    (answered : Broker.Answers (.store (.fetch topic partition start max)) broker answer after)
    (other : TopicName) (wanted : Nat) :
    after.given other wanted = broker.given other wanted ∧
      after.trimmed other wanted = broker.trimmed other wanted := by
  obtain ⟨view, recalls⟩ := recalled
  obtain ⟨stored, _, grown, _⟩ := answered
  obtain ⟨_, ⟨rfl, _⟩, shows⟩ := model.step recalls.shows stored
  constructor
  · rw [given, given, grown]
    exact congrArg _ (congrArg (recordsOn · _ _) (List.append_nil _))
  · rw [recalls.trimmed, trimmed, model.start shows]

namespace Node

/-- Who has seen all that is not pruned, in order, has seen just that. -/
theorem Missed.whole {given seen : List Record} {trimmed : Nat} (numbered : Numbered 0 given)
    (ordered : seen.Sublist given) (above : ∀ record ∈ seen, trimmed ≤ record.offset)
    (missed : Missed trimmed given seen) : seen = given.drop trimmed := by
  have kept := numbered.filter_from (Nat.zero_le trimmed)
  rw [Nat.sub_zero] at kept
  have all : seen.filter (fun record => trimmed ≤ record.offset) = seen := by
    rw [List.filter_eq_self]
    intro record member
    exact decide_eq_true (above record member)
  have within : seen.Sublist (given.drop trimmed) := by
    rw [← all, ← kept]
    exact ordered.filter _
  apply within.eq_of_length_le
  have distinct : (given.drop trimmed).Nodup := by
    have ascending := numbered.drop trimmed |>.ascending
    apply ascending.imp
    rintro left _ less rfl
    exact Nat.lt_irrefl _ less
  refine (distinct.subperm ?_).length_le
  intro record member
  have bounds := (numbered.drop trimmed).bounds member
  cases missed record (List.mem_of_mem_drop member) with
  | inl known => exact known
  | inr pruned => omega

namespace Pipeline

/-- Nobody else uses the store. -/
abbrev Alone (model : LogStoreModel) : Broker model → Broker model → Prop := fun _ _ => False

variable {model : LogStoreModel} {node after : Pipeline model} {runtime : SinkRuntime}
  {position : Nat} {seen : List Record}

theorem alone_same {broker later : Broker model} (moves : Relation.ReflTransGen (Alone model) broker later) :
    later = broker := by
  cases moves with
  | refl => rfl
  | tail _ step => cases step

/-- A round of the sink in a store that nobody else uses. -/
theorem Accounts.round_alone (accounts : node.Accounts runtime position seen) {report : DeliveryReport}
    (ended : Ends (Amid (Moves (Alone model)) Sinks) runtime.runOnce node (.ok report) after) :
    ∃ records next, Reading (Alone model) runtime node after position seen records next node.broker ∧
      report = reportOf node.sink.failEvery records next ∧
      after.log runtime = node.log runtime ∧ after.pruned runtime = node.pruned runtime := by
  obtain ⟨records, next, moment, reading, reports⟩ := accounts.round False.elim ended
  have here := alone_same reading.earlier
  subst here
  obtain ⟨found, later, fetched, more⟩ := reading.fetched
  have last := alone_same more
  subst last
  obtain ⟨given, trimmed⟩ := accounts.recalled.fetch_same fetched runtime.topic runtime.partition
  exact ⟨records, next, reading, reports, given, trimmed⟩

/-- What the sink reads is not pruned, and takes it further. -/
theorem Reading.above {others : Broker model → Broker model → Prop} {records : List Record} {next : Nat}
    {moment : Broker model}
    (reading : Reading others runtime node after position seen records next moment)
    (numbered : Numbered 0 (moment.given runtime.topic runtime.partition)) :
    (∀ record ∈ records, moment.trimmed runtime.topic runtime.partition ≤ record.offset) ∧
      (records ≠ [] → position < next) := by
  have follow := (numbered.drop (Nat.max position (moment.trimmed runtime.topic runtime.partition))).take
    runtime.config.batchSize
  rw [Nat.zero_add, ← reading.reads] at follow
  have left : position ≤ Nat.max position (moment.trimmed runtime.topic runtime.partition) :=
    Nat.le_max_left _ _
  have right : moment.trimmed runtime.topic runtime.partition ≤
      Nat.max position (moment.trimmed runtime.topic runtime.partition) := Nat.le_max_right _ _
  refine ⟨?_, ?_⟩
  · intro record member
    have bounds := follow.bounds member
    omega
  · intro some
    have positive := List.length_pos_iff.mpr some
    rw [reading.ends, follow.nextAfter some]
    omega

/-- Alone, the sink is done when it has handled just what the store retains. -/
theorem Accounts.drain_alone (accounts : node.Accounts runtime position seen)
    (positive : 0 < runtime.config.batchSize)
    (above : ∀ record ∈ seen, node.pruned runtime ≤ record.offset) {reports : List DeliveryReport}
    (drained : Repeats (Amid (Moves (Alone model)) Sinks) runtime.runOnce
      (fun report => report.polled = 0) node reports after) :
    ∃ records next, after.Accounts runtime next (seen ++ records) ∧
      seen ++ records = (node.log runtime).drop (node.pruned runtime) ∧
      (reports.dropLast.map DeliveryReport.delivered).sum =
        (FailingSink.accepted node.sink.failEvery records).length ∧
      (reports.dropLast.map DeliveryReport.deadLettered).sum =
        (FailingSink.poisoned node.sink.failEvery records).length ∧
      after.sink.failEvery = node.sink.failEvery ∧ after.log runtime = node.log runtime ∧
      after.pruned runtime = node.pruned runtime := by
  induction drained generalizing position seen with
  | last round stop =>
      obtain ⟨records, next, reading, rfl, given, pruned⟩ := accounts.round_alone round
      have none : records = [] := List.eq_nil_of_length_eq_zero stop
      subst none
      have numbered := (accounts.recalled.history runtime.topic runtime.partition).1
      have missed := accounts.missed.idle numbered positive reading.reads.symm
      refine ⟨[], next, reading.accounts, ?_, rfl, rfl, ?_, given, pruned⟩
      · rw [List.append_nil]
        exact missed.whole numbered (accounts.ordered.trans (List.take_sublist _ _)) above
      · rw [reading.frame]
  | @more _ report middle values final round go rest ih =>
      obtain ⟨records, next, reading, rfl, given, pruned⟩ := accounts.round_alone round
      have numbered := (accounts.recalled.history runtime.topic runtime.partition).1
      have higher : ∀ record ∈ seen ++ records, middle.pruned runtime ≤ record.offset := by
        intro record member
        rw [pruned]
        rcases List.mem_append.mp member with old | new
        · exact above record old
        · exact (reading.above numbered).1 record new
      obtain ⟨more, last, accounts', whole, delivered, dead, limit, given', pruned'⟩ :=
        ih reading.accounts higher
      have failEvery : middle.sink.failEvery = _ := congrArg (fun node => node.sink.failEvery) reading.frame
      have nonempty : values ≠ [] := by
        cases rest <;> simp
      rw [List.append_assoc] at accounts' whole
      rw [failEvery] at delivered dead limit
      refine ⟨records ++ more, last, accounts', ?_, ?_, ?_, limit, given'.trans given, pruned'.trans pruned⟩
      · rw [whole, given, pruned]
      · rw [List.dropLast_cons_of_ne_nil nonempty, List.map_cons, List.sum_cons, delivered]
        simp [reportOf]
      · rw [List.dropLast_cons_of_ne_nil nonempty, List.map_cons, List.sum_cons, dead]
        simp [reportOf]

/-- The partition of a source that nobody else fills: it holds the stream so far. -/
structure Filled (producer : SourceRuntime) (first : RecordGenerator) (total : Nat)
    (node : Pipeline model) : Prop where
  recalled : node.broker.Recalled
  generates : RecordGenerator.nextRecords (node.broker.given producer.topic producer.partition).length
    first = some ((node.broker.given producer.topic producer.partition).map Record.submitted,
      node.source.generator)
  produced : node.produced = (node.broker.given producer.topic producer.partition).length
  remaining : node.source.remaining + node.produced = total
  batchSize : 0 < node.source.batchSize

variable {producer : SourceRuntime} {first : RecordGenerator} {total : Nat}

theorem Filled.fresh {broker : Broker model} (fresh : broker.Created producer.topic 1)
    {source : GeneratorSource} (batchSize : 0 < source.batchSize)
    (failEvery : Nat) :
    (Pipeline.fresh broker source failEvery).Filled producer source.generator source.remaining := by
  have none : broker.given producer.topic producer.partition = [] := fresh.empty _
  refine ⟨fresh.recalled, ?_, ?_, rfl, batchSize⟩
  · change RecordGenerator.nextRecords (broker.given producer.topic producer.partition).length _ = _
    rw [none]
    exact congrArg (fun given => some (List.map Record.submitted given, _)) none.symm
  · change 0 = (broker.given producer.topic producer.partition).length
    rw [none]
    rfl

theorem Filled.round (filled : node.Filled producer first total) {count : Nat}
    (ended : Ends (Amid (Moves (Alone model)) Sources) producer.runOnce node (.ok count) after) :
    after.Filled producer first total ∧ node.source.remaining = after.source.remaining + count ∧
      (count = 0 → node.source.remaining = 0) ∧
      after = { node with broker := after.broker, source := after.source, produced := after.produced } := by
  obtain ⟨records, source, broker, polls, rfl, rfl, appends⟩ := sourceRound_ends ended
  obtain ⟨_, same, continues, size, remaining, batch⟩ := GeneratorSource.poll_continues polls
  cases same
  have left := filled.remaining
  have positive := filled.batchSize
  have least : records.length = 0 → node.source.remaining = 0 := by
    intro none
    have smaller : node.source.remaining = 0 ∨ 0 < Nat.min node.source.remaining node.source.batchSize := by
      rcases Nat.eq_zero_or_pos node.source.remaining with zero | some
      · exact .inl zero
      · exact .inr (Nat.lt_min.mpr ⟨some, positive⟩)
    omega
  have within : records.length ≤ node.source.remaining := size ▸ Nat.min_le_left _ _
  rcases appends with ⟨none, along⟩ | ⟨moment, timestamp, outcome, later, along, answered, final⟩
  · subst none
    have here := alone_same along
    subst here
    simp only [List.length_nil, Nat.sub_zero] at remaining
    have idle : node.source.generator = source.generator := congrArg Prod.snd (Option.some.inj continues)
    refine ⟨⟨filled.recalled, ?_, filled.produced, ?_, by rw [batch]; exact positive⟩, ?_, least, rfl⟩
    · rw [← idle]
      exact filled.generates
    · simp only [List.length_nil]
      omega
    · simp only [List.length_nil]
      omega
  · have here := alone_same along
    subst here
    have last := alone_same final
    subst last
    obtain ⟨grown, _, submitted⟩ := Broker.Recalled.appends filled.recalled answered
    have kept : (outcome.records.map model.readBack).map Record.submitted = records := by
      rw [List.map_map, ← submitted]
      exact List.map_congr_left fun record _ => model.readBack_submitted record
    have length := congrArg List.length kept
    rw [List.length_map] at length
    refine ⟨⟨filled.recalled.tail ⟨_, _, answered⟩, ?_, ?_, ?_, by rw [batch]; exact positive⟩, ?_, least, rfl⟩
    · have generates := filled.generates
      rw [← List.length_map Record.submitted] at generates
      have whole := RecordGenerator.nextRecords_append generates continues
      rw [grown, List.map_append, kept, List.length_append, length]
      rwa [List.length_append, List.length_map] at whole
    · rw [grown, List.length_append, length, ← filled.produced]
    · simp only
      omega
    · simp only
      omega

theorem Filled.fill (filled : node.Filled producer first total) {counts : List Nat}
    (repeats : Repeats (Amid (Moves (Alone model)) Sources) producer.runOnce (fun count => count = 0) node
      counts after) :
    after.Filled producer first total ∧ after.source.remaining = 0 ∧
      after = { node with broker := after.broker, source := after.source, produced := after.produced } := by
  induction repeats with
  | last round stop =>
      obtain ⟨filled', less, empty, frame⟩ := filled.round round
      have zero := empty stop
      exact ⟨filled', by omega, frame⟩
  | more round go rest ih =>
      obtain ⟨filled', _, _, frame⟩ := filled.round round
      obtain ⟨filled'', empty, frame'⟩ := ih filled'
      exact ⟨filled'', empty, by rw [frame', frame]⟩

end Pipeline

end Node

end ConnectForge
