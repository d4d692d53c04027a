import ConnectForge.Core.Engine
import ConnectForge.Core.StoreSpec

namespace ConnectForge

open Data Interaction

/-! The engine over a store that behaves like what it shows.  The limiter and
the clock answer as they like, and the bus takes every event. -/

/-- A batch the store took, with the records it became. -/
structure Batch where
  topic : TopicName
  partition : Nat
  submitted : List ProduceRecord
  records : List Record

/-- What a store answer adds to the batches it took. -/
def taken : (request : StoreCall) → request.Answer → List Batch
  | .append topic partition submitted _, .ok outcome =>
      [{ topic, partition, submitted, records := outcome.records }]
  | _, _ => []

structure Broker (model : LogStoreModel) where
  store : model.Store
  roundRobin : Nat
  /-- Every batch the store took, in order. -/
  appended : List Batch
  /-- Every event the bus was given, in order. -/
  published : List LogEvent

namespace Broker

variable {model : LogStoreModel}

def new (model : LogStoreModel) : Broker model :=
  { store := model.new, roundRobin := 0, appended := [], published := [] }

def Answers : (request : EngineCall) → Broker model → request.Answer → Broker model → Prop
  | .store request, broker, answer, after => model.answers request broker.store answer after.store ∧
      after.roundRobin = broker.roundRobin ∧
      after.appended = broker.appended ++ taken request answer ∧ after.published = broker.published
  | .nextSlot, broker, slot, after => slot = broker.roundRobin ∧
      after = { broker with roundRobin := (broker.roundRobin + 1) % u64Modulus }
  | .tryAcquire _, broker, _, after => after = broker
  | .now, broker, _, after => after = broker
  | .publish event, broker, answer, after => answer = .ok () ∧
      after = { broker with published := broker.published ++ [event] }

def target (broker : Broker model) (batch : List ProduceRecord) (count : Nat) : Nat :=
  match batch.head?.bind ProduceRecord.key with
  | some key => keyedPartition key count
  | none => broker.roundRobin % count

def nextSlot (broker : Broker model) (batch : List ProduceRecord) : Nat :=
  match batch.head?.bind ProduceRecord.key with
  | some _ => broker.roundRobin
  | none => (broker.roundRobin + 1) % u64Modulus

/-- Two moments between which nothing was stored, routed or published. -/
structure Idle (broker after : Broker model) : Prop where
  roundRobin : after.roundRobin = broker.roundRobin
  appended : after.appended = broker.appended
  published : after.published = broker.published

theorem Idle.refl (broker : Broker model) : broker.Idle broker := ⟨rfl, rfl, rfl⟩

variable {broker after : Broker model} {view : StoreView} {topic : TopicName}

theorem requireTopic_ends {count : Nat} (shows : model.Shows broker.store view)
    (ended : Ends Answers (requireTopic topic) broker (.ok count) after) :
    broker.Idle after ∧ model.Shows after.store view ∧
      ∃ state, view.find? topic.asStr = some state ∧ count = state.config.partitions := by
  obtain ⟨answer, counted, counts, rest⟩ := ends_bind ended
  have safe : Safe Answers Eq (fun _ _ => True)
      (fun result later => ∀ found, result = .ok found →
        broker.Idle later ∧ model.Shows later.store view ∧
          found = view.count? topic)
      (partitionCount topic) broker := by
    refine safe_storeCall (fun later => broker.Idle later ∧ model.Shows later.store view) ?_
      ⟨.refl broker, shows⟩
    rintro before ⟨idle, shows⟩
    refine Safe.ask ?_
    rintro answer later ⟨answered, roundRobin, appended, published⟩
    obtain ⟨_, ⟨rfl, rfl⟩, shows'⟩ := model.step shows answered
    refine ⟨?_, nofun⟩
    intro found same
    cases same
    refine ⟨⟨roundRobin.trans idle.roundRobin, ?_, published.trans idle.published⟩, shows', rfl⟩
    rw [appended, idle.appended]
    exact List.append_nil _
  cases answer with
  | error reason => cases (ends_done rest).1
  | ok found =>
      obtain ⟨idle, shows', rfl⟩ := safe.ends (fun _ => rfl) counts found rfl
      unfold StoreView.count? at rest
      cases located : view.find? topic.asStr with
      | none =>
          rw [located] at rest
          cases (ends_done rest).1
      | some state =>
          rw [located] at rest
          obtain ⟨same, rfl⟩ := ends_done rest
          exact ⟨idle, shows', state, rfl, Except.ok.inj same⟩

theorem route_ends {batch : List ProduceRecord} {count partition : Nat}
    (ended : Ends Answers (route (batch.head?.bind ProduceRecord.key) count) broker partition after) :
    partition = broker.target batch count ∧
      after = { broker with roundRobin := broker.nextSlot batch } := by
  unfold target nextSlot
  cases key : batch.head?.bind ProduceRecord.key with
  | some key' =>
      rw [key] at ended
      exact ends_done ended
  | none =>
      rw [key] at ended
      obtain ⟨_, _, ⟨rfl, rfl⟩, rest⟩ := ends_ask ended
      exact ends_done rest

theorem announce_ends {partition : Nat} {outcome : AppendOutcome}
    (ended : Ends Answers (announce topic partition outcome) broker () after) :
    after.store = broker.store ∧ after.roundRobin = broker.roundRobin ∧
      after.appended = broker.appended := by
  obtain ⟨_, _, ⟨rfl, rfl⟩, rest⟩ := ends_ask ended
  cases truncated : outcome.truncatedTo with
  | none =>
      simp only [truncated] at rest
      obtain ⟨_, rfl⟩ := ends_done rest
      exact ⟨rfl, rfl, rfl⟩
  | some newStart =>
      simp only [truncated] at rest
      obtain ⟨_, _, ⟨rfl, rfl⟩, last⟩ := ends_ask rest
      obtain ⟨_, rfl⟩ := ends_done last
      exact ⟨rfl, rfl, rfl⟩

/-- The partition a batch was added to, before and after. -/
structure Lands (broker after : Broker model) (view : StoreView) (topic : TopicName) (partition : Nat)
    (batch : List ProduceRecord) (state : TopicLog) (log later : PartitionLog)
    (outcome : AppendOutcome) : Prop where
  found : view.find? topic.asStr = some state
  here : state.partitions[partition]? = some log
  appends : log.Appends later (outcome.records.map model.readBack) outcome.truncatedTo
  numbered : Numbered log.next outcome.records
  submitted : outcome.records.map Record.submitted = batch
  shows : model.Shows after.store
    (view.insert topic.asStr { state with partitions := state.partitions.set partition later })
  appended : after.appended =
    broker.appended ++ [{ topic, partition, submitted := batch, records := outcome.records }]

theorem append_ends {partition : Nat} {batch : List ProduceRecord} {timestamp : DateTime}
    {outcome : AppendOutcome} (shows : model.Shows broker.store view)
    (ended : Ends Answers (storeCall (Program.ask
      (EngineCall.store (.append topic partition batch timestamp)))) broker (.ok outcome) after) :
    after.roundRobin = broker.roundRobin ∧
      ∃ state log later, Lands broker after view topic partition batch state log later outcome := by
  have safe : Safe Answers Eq (fun _ _ => True)
      (fun result later => ∀ outcome, result = .ok outcome → later.roundRobin = broker.roundRobin ∧
        ∃ state log grown, Lands broker later view topic partition batch state log grown outcome)
      (storeCall (Program.ask (EngineCall.store (.append topic partition batch timestamp)))) broker := by
    refine safe_storeCall (fun later => broker.Idle later ∧ model.Shows later.store view) ?_
      ⟨.refl broker, shows⟩
    rintro before ⟨idle, shows⟩
    refine Safe.ask ?_
    rintro answer later ⟨answered, roundRobin, appended, published⟩
    obtain ⟨_, refused | taken, shows'⟩ := model.step shows answered
    · obtain ⟨⟨reason, rfl⟩, rfl⟩ := refused
      refine ⟨nofun, fun _ _ => ⟨⟨roundRobin.trans idle.roundRobin, ?_, published.trans idle.published⟩,
        shows'⟩⟩
      rw [appended, idle.appended]
      exact List.append_nil _
    · obtain ⟨state, log, outcome, grown, found, here, rfl, numbers, appends, rfl⟩ := taken
      refine ⟨?_, nofun⟩
      intro value same
      cases same
      refine ⟨roundRobin.trans idle.roundRobin, state, log, grown, found, here, appends,
        (materialize_numbered numbers).2.1, materialize_submitted numbers, shows', ?_⟩
      rw [appended, idle.appended]
      rfl
  exact safe.ends (fun _ => rfl) ended outcome rfl

theorem produce_ends {batch : List ProduceRecord} {result : ProduceResult}
    (shows : model.Shows broker.store view)
    (ended : Ends Answers (produce topic batch) broker (.ok result) after) :
    batch ≠ [] ∧ after.roundRobin = broker.nextSlot batch ∧ ∃ state log later outcome,
      Lands broker after view topic (broker.target batch state.config.partitions) batch state log later
        outcome := by
  obtain ⟨_, count, counted, partition, _, timestamp, _, outcome, stored, acquires, requires, routes, times,
    stores, announces, nonempty, _, _⟩ := produce_stages ended
  obtain ⟨_, limited, same, afterLimiter⟩ := ends_call acquires
  rw [(ends_done afterLimiter).2, show limited = broker from same] at requires
  obtain ⟨idle, shows', state, found, rfl⟩ := requireTopic_ends shows requires
  obtain ⟨rfl, rfl⟩ := route_ends routes
  obtain ⟨_, _, rfl, afterClock⟩ := ends_call times
  obtain ⟨_, rfl⟩ := ends_done afterClock
  have shown : model.Shows ({ counted with roundRobin := counted.nextSlot batch } : Broker model).store
      view := shows'
  obtain ⟨slot, state', log, later, lands⟩ := append_ends shown stores
  obtain ⟨sameStore, sameSlot, sameAppended⟩ := announce_ends announces
  have unique := lands.found
  rw [found] at unique
  cases unique
  have routed : counted.target batch state.config.partitions =
      broker.target batch state.config.partitions := by
    rw [target, target, idle.roundRobin]
  rw [routed] at lands
  refine ⟨nonempty, ?_, state, log, later, outcome, lands.found, lands.here, lands.appends,
    lands.numbered, lands.submitted, ?_, ?_⟩
  · rw [sameSlot, slot]
    change counted.nextSlot batch = _
    rw [nextSlot, nextSlot, idle.roundRobin]
  · rw [sameStore]
    exact lands.shows
  · rw [sameAppended, lands.appended]
    change counted.appended ++ _ = _
    rw [idle.appended]

section Runs

/-! Calls that go through. -/

variable {store middle : model.Store}

theorem createTopic_runs {engine : LogConfig} {config : TopicConfig} {existing : List TopicConfig}
    (built : TopicConfig.new config.name config.partitions config.retention = .ok config)
    (positive : config.partitions ≠ 0) (lists : model.answers .topics broker.store (.ok existing) middle)
    (room : existing.length < engine.maxTopics)
    (creates : model.answers (.createTopic config) middle (.ok true) store) :
    ∃ after, Ends Answers (engine.createTopic config.name config.partitions config.retention) broker
        (.ok ()) after ∧
      after.store = store ∧ after.roundRobin = broker.roundRobin ∧ after.appended = broker.appended := by
  have listed : Ends Answers (storeCall (Program.ask (EngineCall.store .topics))) broker
      (.ok existing) { broker with store := middle } :=
    storeCall_first (Ends.ask ⟨lists, rfl, (List.append_nil _).symm, rfl⟩)
  have created : Ends Answers (storeCall (Program.ask (EngineCall.store (.createTopic config))))
      { broker with store := middle } (.ok true) { broker with store := store } :=
    storeCall_first (Ends.ask ⟨creates, rfl, (List.append_nil _).symm, rfl⟩)
  have announced : ∀ event, Ends Answers (Program.ask (EngineCall.publish event))
      { broker with store := store } (.ok ())
      { broker with store := store, published := broker.published ++ [event] } :=
    fun event => Ends.ask ⟨rfl, rfl⟩
  unfold LogConfig.createTopic
  simp only [positive, ↓reduceIte, built]
  let event : LogEvent := .topicCreated config.name
    (if config.partitions = 0 then engine.defaultPartitions else config.partitions)
  refine ⟨{ broker with store := store, published := broker.published ++ [event] },
    Ends.bind listed ?_, rfl, rfl, rfl⟩
  simp only [Nat.not_le.mpr room, ↓reduceIte]
  exact Ends.bind created (Ends.bind (announced event) .done)

theorem announce_runs (broker : Broker model) (partition : Nat) (outcome : AppendOutcome) :
    ∃ after, Ends Answers (announce topic partition outcome) broker () after ∧
      after.store = broker.store ∧ after.roundRobin = broker.roundRobin ∧
      after.appended = broker.appended := by
  unfold announce
  cases outcome.truncatedTo with
  | none => exact ⟨_, Ends.bind (Ends.ask ⟨rfl, rfl⟩) .done, rfl, rfl, rfl⟩
  | some newStart =>
      exact ⟨_, Ends.bind (Ends.ask ⟨rfl, rfl⟩) (Ends.bind (Ends.ask ⟨rfl, rfl⟩) .done), rfl, rfl, rfl⟩

theorem produce_runs {batch : List ProduceRecord} {count : Nat} {outcome : AppendOutcome}
    (nonempty : batch ≠ []) (valid : validateAll batch = .ok ())
    (counts : model.answers (.partitionCount topic) broker.store (.ok (some count)) middle)
    (appends : model.answers (.append topic (broker.target batch count) batch .epoch) middle
      (.ok outcome) store) :
    ∃ after, Ends Answers (produce topic batch) broker (.ok (produceResult outcome)) after ∧
      after.store = store ∧ after.roundRobin = broker.nextSlot batch ∧
      after.appended = broker.appended ++ [{
        topic
        partition := broker.target batch count
        submitted := batch
        records := outcome.records }] := by
  have admitted : Ends Answers (Program.ask (EngineCall.tryAcquire batch.length)) broker true broker :=
    Ends.ask rfl
  have answered : Ends Answers (partitionCount topic) broker (.ok (some count))
      { broker with store := middle } :=
    storeCall_first (Ends.ask ⟨counts, rfl, (List.append_nil _).symm, rfl⟩)
  have counted : Ends Answers (requireTopic topic) broker (.ok count) { broker with store := middle } :=
    Ends.bind answered .done
  have routed : Ends Answers (route (batch.head?.bind ProduceRecord.key) count)
      { broker with store := middle } (broker.target batch count)
      { broker with store := middle, roundRobin := broker.nextSlot batch } := by
    unfold target nextSlot
    cases batch.head?.bind ProduceRecord.key with
    | some key => exact .done
    | none => exact Ends.bind (Ends.ask ⟨rfl, rfl⟩) .done
  have timed : Ends Answers (Program.ask EngineCall.now)
      { broker with store := middle, roundRobin := broker.nextSlot batch } DateTime.epoch
      { broker with store := middle, roundRobin := broker.nextSlot batch } := Ends.ask rfl
  have stored : Ends Answers (storeCall (Program.ask (EngineCall.store
      (.append topic (broker.target batch count) batch .epoch))))
      { broker with store := middle, roundRobin := broker.nextSlot batch } (.ok outcome)
      { broker with
        store := store
        roundRobin := broker.nextSlot batch
        appended := broker.appended ++ [{
          topic
          partition := broker.target batch count
          submitted := batch
          records := outcome.records }] } :=
    storeCall_first (Ends.ask ⟨appends, rfl, rfl, rfl⟩)
  obtain ⟨after, announced, sameStore, sameSlot, sameAppended⟩ :=
    @announce_runs model topic { broker with
      store := store
      roundRobin := broker.nextSlot batch
      appended := broker.appended ++ [{
        topic
        partition := broker.target batch count
        submitted := batch
        records := outcome.records }] } (broker.target batch count) outcome
  refine ⟨after, ?_, sameStore, sameSlot, sameAppended⟩
  have filled : batch.isEmpty = false := by simpa using nonempty
  unfold produce
  simp only [filled, Bool.false_eq_true, ↓reduceIte]
  refine Ends.bind admitted ?_
  simp only [valid, Bool.not_true, Bool.false_eq_true, ↓reduceIte]
  exact Ends.bind counted (Ends.bind routed (Ends.bind timed (Ends.bind stored
    (Ends.bind announced .done))))

end Runs

end Broker

end ConnectForge
