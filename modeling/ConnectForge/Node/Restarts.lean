import ConnectForge.Broker.Lifetimes
import ConnectForge.Node.Supervisor

namespace ConnectForge

open Data Infra Interaction

/-- A partition that the files hold is there for the broker. -/
theorem Broker.Recalled.has_stored {broker : Broker durableStore} (recalled : broker.Recalled)
    {topic : TopicName} {partition : Nat} {state : TopicState} {part : StoredPartition}
    (here : broker.store.topics.find? topic.asStr = some state)
    (found : state.partitions[partition]? = some part) : broker.Has topic partition := by
  obtain ⟨view, recalls⟩ := recalled
  have reflects : FileLogStore.Reflects StoredShows broker.store view := recalls.shows
  obtain ⟨_, there, _, shown, seen, _⟩ := found_shown reflects.topics here found
  refine ⟨view, shown, recalls, ?_⟩
  rw [StoreView.log?, there]
  exact seen

namespace Node

/-! The supervised pipeline over the file store: a process starts it anew, with
nothing but the store left of the processes before. -/

theorem Pipeline.Letters.of_mem {runtime : SinkRuntime} {records : List Record}
    {letters : List DeadLetterRecord} (wrote : Pipeline.Letters runtime records letters) {record : Record}
    (member : record ∈ records) :
    ∃ letter ∈ letters, letter.offset = record.offset ∧ letter.payload = record.payload := by
  induction wrote with
  | nil => cases member
  | @cons _ letter _ _ first _ ih =>
      rcases List.mem_cons.mp member with rfl | later
      · obtain ⟨failedAt, same⟩ := first
        exact ⟨letter, List.mem_cons_self, by rw [same]; rfl, by rw [same]; rfl⟩
      · obtain ⟨letter, known, same⟩ := ih later
        exact ⟨letter, List.mem_cons_of_mem _ known, same⟩

/-- A record that the sink has seen was delivered, or there is a letter for it. -/
theorem Pipeline.Accounts.handled {model : LogStoreModel} {runtime : SinkRuntime} {node : Pipeline model}
    {position : Nat} {seen : List Record} (accounts : node.Accounts runtime position seen) {record : Record}
    (member : record ∈ seen) :
    record ∈ node.sink.delivered ∨
      ∃ letter ∈ node.dlq.records, letter.offset = record.offset ∧ letter.payload = record.payload := by
  cases poison : FailingSink.poison node.sink.failEvery record with
  | false =>
      left
      rw [accounts.delivered]
      exact List.mem_filter.mpr ⟨member, by rw [poison]; rfl⟩
  | true =>
      right
      exact accounts.letters.of_mem (List.mem_filter.mpr ⟨member, poison⟩)

/-- An acknowledged record outlives the process and reaches the sink of a later
one.  Whatever calls, stops and crashes there are after the acknowledgement, once a
supervisor that starts then has made a tick, the record was delivered or
dead-lettered, unless retention has pruned it. -/
theorem restart_delivers {broker middle : Broker durableStore}
    (history : Broker.Lives (.new durableStore) broker) {batch : List ProduceRecord} {result : ProduceResult}
    (produced : Ends (Amid Broker.Others Broker.Answers) (produce connectorDemo batch) broker (.ok result)
      middle) :
    ∃ partition records, middle.Placed connectorDemo partition batch result records ∧
      (partition = 0 → ∀ {before created : Broker durableStore} {engine : LogConfig}
        {answer : Except CoreError Unit} {after : Pipeline durableStore}, middle.Lives before →
        Ends (Amid Broker.Others Broker.Answers) (engine.createTopic connectorDemo 1 .default) before answer
          created →
        Relation.TransGen Supervisor.Tick (.fresh created supervisorSource 500) after →
        ∀ record ∈ records, after.pruned loggingSink ≤ record.offset →
          record.truncate ∈ after.sink.delivered ∨
            ∃ letter ∈ after.dlq.records, letter.offset = record.offset ∧ letter.payload = record.payload) := by
  have recalled := history.recalled .new
  obtain ⟨partition, records, placed, _⟩ := Broker.produce_places recalled produced
  have recalled' := recalled.trans (Broker.Others.ended produced)
  refine ⟨partition, records, placed, ?_⟩
  rintro rfl before created engine answer after lives creates ticks record member kept
  have starts : Supervisor.Starts engine (.fresh created supervisorSource 500) :=
    ⟨before, answer, created, lives.recalled recalled', creates, rfl⟩
  have lies := (placed.lies.grows (lives.given_grows connectorDemo 0)).others (Broker.Others.ended creates)
  have there : record.truncate ∈ created.given connectorDemo 0 :=
    List.mem_of_getElem? (lies.there placed.numbered member)
  obtain ⟨_, _, next, seen, sound, _, _, caught⟩ := starts.sound.ticks ticks
  rcases caught record.truncate there with saw | pruned
  · exact sound.accounts.handled saw
  · exact absurd kept (Nat.not_le.mpr pruned)

/-! The topic of the supervisor with one record in it, of an earlier process. -/

def demoConfig : TopicConfig := ⟨connectorDemo, 1, .default⟩

def demoFiles (part : StoredPartition) (produced : Nat) : FileLogStore :=
  { topics := OrderedMap.empty.insert connectorDemo.asStr { config := demoConfig, partitions := [part] }
    fetchedTotal := 0
    producedTotal := produced }

/-- A record of one process, and the first tick of the next. -/
theorem restart_delivers_once :
    ∃ (broker middle before created : Broker durableStore) (batch : List ProduceRecord)
      (result : ProduceResult) (answer : Except CoreError Unit) (after : Pipeline durableStore),
      Ends (Amid Broker.Others Broker.Answers) (produce connectorDemo batch) broker (.ok result) middle ∧
      Broker.Dies middle before ∧
      Ends (Amid Broker.Others Broker.Answers) (LogConfig.default.createTopic connectorDemo 1 .default) before
        answer created ∧
      Supervisor.Tick (.fresh created supervisorSource 500) after ∧
      ∃ record : Record, record.submitted = { key := none, payload := [1] } ∧
        (after.pruned loggingSink ≤ record.offset → record.truncate ∈ after.sink.delivered ∨
          ∃ letter ∈ after.dlq.records, letter.offset = record.offset ∧ letter.payload = record.payload) := by
  let made : Broker durableStore := ⟨demoFiles ⟨.fresh, .empty⟩ 0, 0, [], []⟩
  have creates : Broker.Calls (.new durableStore) made :=
    ⟨.store (.createTopic demoConfig), .ok true, ⟨rfl, rfl⟩, rfl, rfl, rfl⟩
  obtain ⟨⟨store, slot, batches, events⟩, produced, stored, _, appended⟩ :=
    @Broker.produce_runs durableStore made connectorDemo (demoFiles soloStored 1) made.store plainBatch 1
      ⟨[plainRecord 0], none⟩ (by decide) rfl ⟨trivial, rfl⟩ ⟨plainBatch_asked, rfl⟩
  dsimp only at stored appended
  subst stored
  have among := @Ends.amid _ _ _ _ Broker.Others _ _ _ _ _ (fun _ => .refl) produced
  obtain ⟨partition, records, placed, later⟩ := restart_delivers (.single (.inl creates)) among
  -- The process ends, and the next one finds the topic there.
  have restarts : FileLogStore.Restarts (demoFiles soloStored 1) (demoFiles soloStored 0) :=
    ⟨OrderedMap.All.empty.insert _ (show Descends connectorDemo.asStr by decide),
      OrderedMap.Related.empty.insert _ ⟨rfl, .cons ⟨_, .killed, _, .refl _,
        recover_torn soloLog rfl (withTail_empty soloLog.files).symm (.refl _)⟩ .nil⟩, rfl, rfl⟩
  have dies : Broker.Dies ⟨demoFiles soloStored 1, slot, batches, events⟩
      ⟨demoFiles soloStored 0, 0, batches, []⟩ := .stopped restarts
  let created : Broker durableStore := ⟨demoFiles soloStored 0, 0, batches, []⟩
  have lists : Ends Broker.Answers (storeCall (Program.ask (EngineCall.store .topics))) created
      (.ok [demoConfig]) created :=
    storeCall_first (Ends.ask ⟨⟨trivial, rfl⟩, rfl, (List.append_nil _).symm, rfl⟩)
  have refuses : Ends Broker.Answers (storeCall (Program.ask (EngineCall.store (.createTopic demoConfig))))
      created (.ok false) created :=
    storeCall_first (Ends.ask ⟨⟨rfl, rfl⟩, rfl, (List.append_nil _).symm, rfl⟩)
  have refused : Ends Broker.Answers (LogConfig.default.createTopic connectorDemo 1 .default) created
      (.error (.topicExists connectorDemo.asStr)) created := Ends.bind lists (Ends.bind refuses .done)
  have opens := @Ends.amid _ _ _ _ Broker.Others _ _ _ _ _ (fun _ => .refl) refused
  have recalled : created.Recalled := by
    have old := Broker.Recalled.new.tail creates
    exact Broker.Lives.recalled (.single (.inr dies)) (old.trans (Broker.Others.ended among))
  have has : created.Has connectorDemo 0 :=
    @Broker.Recalled.has_stored created recalled connectorDemo 0 ⟨demoConfig, [soloStored]⟩ soloStored rfl rfl
  have starts : Supervisor.Starts .default (.fresh created supervisorSource 500) :=
    ⟨_, _, created, recalled, opens, rfl⟩
  have given : (created.given connectorDemo 0).length ≤ 1 := by
    subst appended
    decide
  obtain ⟨after, tick⟩ := starts.sound.tick_runs durableStore_serves (Supervisor.supervisorSource_room given)
    (show 32 ≤ maxPayloadBytes by decide) has
  obtain rfl : partition = 0 := by
    apply placed.partition_eq (by decide)
    rw [appended]
    intro batch member
    rw [List.mem_singleton.mp member]
    rfl
  obtain ⟨record, rest, split, submitted, _⟩ := placed.first
  exact ⟨_, _, _, _, _, _, _, _, among, dies, opens, tick, record, submitted,
    later rfl (.single (.inr dies)) opens (.single tick) record (by simp [split])⟩

end Node

end ConnectForge
