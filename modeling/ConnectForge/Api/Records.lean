import ConnectForge.Api.Topics
import ConnectForge.Broker.History
import ConnectForge.Broker.Subscribers
import ConnectForge.Infra.Codec

namespace ConnectForge

open Data Infra Interaction

/-! Records and live events in the GraphQL schema: payloads go in and come out as
text. -/

structure RecordObject where
  offset : Nat
  timestamp : DateTime
  key : Option String
  payload : String
deriving DecidableEq

def RecordObject.ofRecord (record : Record) : RecordObject where
  offset := record.offset
  timestamp := record.timestamp
  key := record.key
  payload := fromUtf8Lossy record.payload

structure FetchResultObject where
  records : List RecordObject
  nextOffset : Nat
  highWatermark : Nat
deriving DecidableEq

def FetchResultObject.ofResult (result : FetchResult) : FetchResultObject where
  records := result.records.map RecordObject.ofRecord
  nextOffset := result.nextOffset
  highWatermark := result.highWatermark

structure ProduceInput where
  key : Option String
  payload : String

structure ProduceResultObject where
  baseOffset : Nat
  lastOffset : Nat
  count : Nat
  truncatedTo : Option Nat
deriving DecidableEq

/-- The count is cut to 32 bits. -/
def ProduceResultObject.ofResult (result : ProduceResult) : ProduceResultObject where
  baseOffset := result.baseOffset
  lastOffset := result.lastOffset
  count := result.count % u32Modulus
  truncatedTo := result.truncatedTo

structure EventObject where
  kind : String
  topic : String
  partition : Option Nat
  offset : Option Nat
  count : Option Nat
deriving DecidableEq

def EventObject.ofEvent (event : LogEvent) : EventObject :=
  match event with
  | .topicCreated topic _ => ⟨event.kind, topic.asStr, none, none, none⟩
  | .recordsAppended topic partition baseOffset records =>
      ⟨event.kind, topic.asStr, some partition, some baseOffset, some (records.length % u32Modulus)⟩
  | .recordsTruncated topic partition newStart =>
      ⟨event.kind, topic.asStr, some partition, some newStart, none⟩

namespace QueryRoot

def fetch (engine : LogConfig) (topic : String) (partition start max : Nat) :
    EngineProgram (Except String FetchResultObject) :=
  match TopicName.new topic with
  | .error reason => return .error reason.toText
  | .ok topic => do
      match ← engine.fetch topic partition start max with
      | .error reason => return .error reason.toText
      | .ok result => return .ok (.ofResult result)

end QueryRoot

namespace MutationRoot

def batch (records : List ProduceInput) : Except String (List ProduceRecord) :=
  records.mapM fun record =>
    (ProduceRecord.new record.key (asBytes record.payload)).mapError InvalidRecord.toText

def produce (topic : String) (records : List ProduceInput) :
    EngineProgram (Except String ProduceResultObject) :=
  match TopicName.new topic with
  | .error reason => return .error reason.toText
  | .ok topic =>
      match batch records with
      | .error reason => return .error reason
      | .ok batch => do
          match ← ConnectForge.produce topic batch with
          | .error reason => return .error reason.toText
          | .ok result => return .ok (.ofResult result)

end MutationRoot

namespace SubscriptionRoot

def names (topics : List String) : Except String (List TopicName) :=
  topics.mapM fun topic => (TopicName.new topic).mapError InvalidRecord.toText

/-- A subscription of the bus, whose events are mapped to objects. -/
def events {ops : Broadcast LogEvent} (bus : BroadcastEventBus ops) (topics : List String) :
    Except String (Subscription ops) × BroadcastEventBus ops :=
  match names topics with
  | .error reason => (.error reason, bus)
  | .ok names =>
      match bus.subscribe names with
      | (.error reason, bus) => (.error (CoreError.port reason).toText, bus)
      | (.ok subscription, bus) => (.ok subscription, bus)

end SubscriptionRoot

theorem TopicName.new_asStr (topic : TopicName) : TopicName.new topic.asStr = .ok topic := by
  unfold TopicName.new
  split
  · rfl
  · rename_i reason invalid
    cases topic.valid.symm.trans invalid

/-- What an input is in the log. -/
def ProduceInput.record (input : ProduceInput) : ProduceRecord := ⟨input.key, asBytes input.payload⟩

theorem ProduceRecord.new_eq {key : Option String} {payload : Bytes} {record : ProduceRecord}
    (made : ProduceRecord.new key payload = .ok record) : record = ⟨key, payload⟩ := by
  unfold ProduceRecord.new at made
  split at made
  · cases made
  split at made
  · cases made
  · cases made
    rfl

theorem mapM_eq {ε α β : Type} {check : α → Except ε β} {make : α → β}
    (made : ∀ {value result}, check value = .ok result → result = make value) {values : List α}
    {results : List β} (checked : values.mapM check = .ok results) : results = values.map make := by
  induction values generalizing results with
  | nil =>
      cases checked
      rfl
  | cons value rest ih =>
      rw [List.mapM_cons] at checked
      cases first : check value with
      | error reason => simp [first, bind, Except.bind] at checked
      | ok result =>
          cases others : rest.mapM check with
          | error reason => simp [first, others, bind, Except.bind] at checked
          | ok later =>
              simp only [first, others, bind, Except.bind, pure, Except.pure, Except.ok.injEq] at checked
              rw [← checked, ih others, made first, List.map_cons]

theorem MutationRoot.batch_ok {records : List ProduceInput} {batch : List ProduceRecord}
    (made : MutationRoot.batch records = .ok batch) : batch = records.map ProduceInput.record := by
  refine mapM_eq ?_ made
  intro input record accepted
  cases valid : ProduceRecord.new input.key (asBytes input.payload) with
  | error reason =>
      rw [valid] at accepted
      cases accepted
  | ok result =>
      rw [valid] at accepted
      cases accepted
      exact ProduceRecord.new_eq valid

section Calls

variable {World : Type} {answers : (request : EngineCall) → World → request.Answer → World → Prop}
  {world after : World} {text : String}

theorem MutationRoot.produce_ends {inputs : List ProduceInput} {object : ProduceResultObject}
    (ended : Ends answers (MutationRoot.produce text inputs) world (.ok object) after) :
    ∃ topic result, TopicName.new text = .ok topic ∧ object = .ofResult result ∧
      Ends answers (ConnectForge.produce topic (inputs.map ProduceInput.record)) world (.ok result) after := by
  unfold MutationRoot.produce at ended
  split at ended
  · cases (ends_done ended).1
  rename_i topic valid
  split at ended
  · cases (ends_done ended).1
  rename_i batch made
  obtain ⟨answer, middle, produced, rest⟩ := ends_bind ended
  cases answer with
  | error reason => cases (ends_done rest).1
  | ok result =>
      obtain ⟨reported, rfl⟩ := ends_done rest
      cases reported
      rw [MutationRoot.batch_ok made] at produced
      exact ⟨topic, result, valid, rfl, produced⟩

theorem QueryRoot.fetch_ends {engine : LogConfig} {partition start max : Nat} {object : FetchResultObject}
    (ended : Ends answers (QueryRoot.fetch engine text partition start max) world (.ok object) after) :
    ∃ topic result, TopicName.new text = .ok topic ∧ object = .ofResult result ∧
      Ends answers (engine.fetch topic partition start max) world (.ok result) after := by
  unfold QueryRoot.fetch at ended
  split at ended
  · cases (ends_done ended).1
  rename_i topic valid
  obtain ⟨answer, middle, fetched, rest⟩ := ends_bind ended
  cases answer with
  | error reason => cases (ends_done rest).1
  | ok result =>
      obtain ⟨reported, rfl⟩ := ends_done rest
      cases reported
      exact ⟨topic, result, valid, rfl, fetched⟩

end Calls

/-- What was produced as text is read as that text, whatever other clients do: every
later fetch that covers an input's offset returns its key and payload there, until
it is pruned. -/
theorem graphql_round_trip {model : LogStoreModel} {broker middle : Broker model} (recalled : broker.Recalled)
    (engine : LogConfig) {text : String} {inputs : List ProduceInput} {object : ProduceResultObject}
    (produced : Ends (Amid Broker.Others Broker.Answers) (MutationRoot.produce text inputs) broker (.ok object)
      middle) :
    object.count = inputs.length % u32Modulus ∧
      object.lastOffset + 1 = object.baseOffset + inputs.length ∧
      ∃ topic partition result records, TopicName.new text = .ok topic ∧ object = .ofResult result ∧
        middle.Placed topic partition (inputs.map ProduceInput.record) result records ∧
        ∀ {next : Broker model} {start max : Nat} {found : FetchResultObject} {after : Broker model},
          middle.Others next →
          Ends (Amid Broker.Others Broker.Answers) (QueryRoot.fetch engine text partition start max) next
            (.ok found) after →
          ∀ index input, inputs[index]? = some input → start ≤ object.baseOffset + index →
            object.baseOffset + index < start + engine.fetchLimit max →
            after.trimmed topic partition ≤ object.baseOffset + index →
            ∃ timestamp, ⟨object.baseOffset + index, timestamp, input.key, input.payload⟩ ∈ found.records := by
  obtain ⟨topic, result, valid, rfl, produces⟩ := MutationRoot.produce_ends produced
  obtain ⟨partition, records, placed, _⟩ := Broker.produce_places recalled produces
  have size : result.count = inputs.length := by rw [placed.count, List.length_map]
  refine ⟨congrArg (· % u32Modulus) size, size ▸ placed.last, topic, partition, result, records, valid, rfl,
    placed, ?_⟩
  intro next start max found after moves fetched index input here low high kept
  obtain ⟨topic', result', valid', rfl, fetches⟩ := QueryRoot.fetch_ends fetched
  obtain rfl : topic = topic' := Except.ok.inj (valid.symm.trans valid')
  -- The record that the input became.
  have there := congrArg (·[index]?) placed.submitted
  simp only [List.getElem?_map, here, Option.map_some] at there
  obtain ⟨record, stored, same⟩ := Option.map_eq_some_iff.mp there
  have offset := placed.numbered.getElem? stored
  have later := recalled.trans ((Broker.Others.ended produced).trans moves)
  have read := (placed.lies.others moves).read placed.numbered later fetches (List.mem_of_getElem? stored)
    (offset ▸ low) (offset ▸ high) (offset ▸ kept)
  have submitted := (model.readBack_submitted record).trans same
  have key : (model.readBack record).key = input.key := congrArg ProduceRecord.key submitted
  have payload : (model.readBack record).payload = asBytes input.payload :=
    congrArg ProduceRecord.payload submitted
  refine ⟨(model.readBack record).timestamp, ?_⟩
  have object := List.mem_map_of_mem (f := RecordObject.ofRecord) read
  rwa [RecordObject.ofRecord, key, payload, fromUtf8Lossy_asBytes, model.readBack_offset, offset] at object

section Runs

/-! Calls that go through. -/

variable {World : Type} {answers : (request : EngineCall) → World → request.Answer → World → Prop}
  {world after : World} {topic : TopicName}

theorem MutationRoot.produce_runs {inputs : List ProduceInput} {result : ProduceResult}
    (made : MutationRoot.batch inputs = .ok (inputs.map ProduceInput.record))
    (ended : Ends answers (ConnectForge.produce topic (inputs.map ProduceInput.record)) world (.ok result)
      after) :
    Ends answers (MutationRoot.produce topic.asStr inputs) world (.ok (.ofResult result)) after := by
  unfold MutationRoot.produce
  rw [TopicName.new_asStr]
  simp only [made]
  exact Ends.bind ended .done

theorem QueryRoot.fetch_runs {engine : LogConfig} {partition start max : Nat} {result : FetchResult}
    (ended : Ends answers (engine.fetch topic partition start max) world (.ok result) after) :
    Ends answers (QueryRoot.fetch engine topic.asStr partition start max) world (.ok (.ofResult result))
      after := by
  unfold QueryRoot.fetch
  rw [TopicName.new_asStr]
  exact Ends.bind ended .done

end Runs

section Overlap

/-! A call that another client's append comes in between of. -/

def otherBatch : List ProduceRecord := [⟨none, [2]⟩]

def otherRecord : Record := ⟨0, .epoch, none, [2]⟩

/-- The other client's record came first. -/
def sharedPartition : Partition := ⟨[otherRecord, plainRecord 1], 0, 2, 1, 2⟩

def sharedBroker (published : List LogEvent) : Broker memoryStore :=
  ⟨soloStore sharedPartition 2, 1,
    [⟨soloTopic.name, 0, otherBatch, [otherRecord]⟩, ⟨soloTopic.name, 0, plainBatch, [plainRecord 1]⟩],
    published⟩

theorem produce_overlapped :
    Ends (Amid Broker.Others Broker.Answers) (produce soloTopic.name plainBatch) (soloBroker .default 0 0 [])
      (.ok (produceResult ⟨[plainRecord 1], none⟩)) (sharedBroker [plainEvent 1]) := by
  let empty := soloBroker .default 0 0 []
  let routed := soloBroker .default 0 1 []
  let first := soloBroker ⟨[otherRecord], 0, 1, 1, 1⟩ 1 1 [⟨soloTopic.name, 0, otherBatch, [otherRecord]⟩]
  have acquires : Amid Broker.Others Broker.Answers (.tryAcquire 1) empty true empty := ⟨empty, .refl, rfl⟩
  have counts : Amid Broker.Others Broker.Answers (.store (.partitionCount soloTopic.name)) empty
      (.ok (some 1)) empty := ⟨empty, .refl, rfl, rfl, rfl, rfl⟩
  have routes : Amid Broker.Others Broker.Answers .nextSlot empty (0 : Nat) routed :=
    ⟨empty, .refl, rfl, rfl⟩
  have times : Amid Broker.Others Broker.Answers .now routed DateTime.epoch routed := ⟨routed, .refl, rfl⟩
  -- The other client's record is stored before this call's.
  have others : Broker.Others routed first :=
    .single ⟨.store (.append soloTopic.name 0 otherBatch .epoch), .ok ⟨[otherRecord], none⟩, rfl, rfl, rfl, rfl⟩
  have stores : Amid Broker.Others Broker.Answers (.store (.append soloTopic.name 0 plainBatch .epoch)) routed
      (.ok ⟨[plainRecord 1], none⟩) (sharedBroker []) := ⟨first, others, rfl, rfl, rfl, rfl⟩
  have announces : Amid Broker.Others Broker.Answers (.publish (plainEvent 1)) (sharedBroker []) (.ok ())
      (sharedBroker [plainEvent 1]) := ⟨sharedBroker [], .refl, rfl, rfl⟩
  exact .call acquires (.call counts (.call routes (.call times (.call stores (.call announces .done)))))

/-- A text is produced while another client appends, and read back by its offset. -/
theorem graphql_round_trip_overlapped :
    ∃ (middle after : Broker memoryStore) (found : FetchResultObject) (timestamp : DateTime),
      Ends (Amid Broker.Others Broker.Answers) (MutationRoot.produce soloTopic.name.asStr [⟨none, "\x01"⟩])
        (soloBroker .default 0 0 []) (.ok ⟨1, 1, 1, none⟩) middle ∧
      Ends (Amid Broker.Others Broker.Answers) (QueryRoot.fetch smallEngine soloTopic.name.asStr 0 0 3)
        middle (.ok found) after ∧
      found.records.map RecordObject.payload = ["\x02", "\x01"] ∧
      ⟨1, timestamp, none, "\x01"⟩ ∈ found.records := by
  let inputs : List ProduceInput := [⟨none, "\x01"⟩]
  have submitted : inputs.map ProduceInput.record = plainBatch := by decide
  have produced := produce_overlapped
  rw [← submitted] at produced
  have among := MutationRoot.produce_runs (by rw [submitted]; decide) produced
  obtain ⟨_, _, topic, partition, result, records, valid, _, placed, reads⟩ :=
    graphql_round_trip soloBroker_recalled smallEngine among
  obtain rfl : soloTopic.name = topic := Except.ok.inj ((TopicName.new_asStr _).symm.trans valid)
  obtain rfl : partition = 0 := by
    apply placed.partition_eq (by decide)
    intro batch member
    rcases List.mem_cons.mp member with rfl | other
    · rfl
    · rw [List.mem_singleton.mp other]
  have fetched := @Broker.fetch_runs memoryStore (sharedBroker [plainEvent 1]) soloTopic.name 0 _
    (soloStore sharedPartition 2) smallEngine 0 3 1 ⟨[otherRecord, plainRecord 1], 2, 2⟩ (by decide) rfl rfl
  have read := @Ends.amid _ _ _ _ Broker.Others _ _ _ _ _ (fun _ => .refl) (QueryRoot.fetch_runs fetched)
  obtain ⟨timestamp, member⟩ := reads .refl read 0 ⟨none, "\x01"⟩ rfl (Nat.zero_le _) (by decide) (Nat.zero_le _)
  exact ⟨_, _, _, timestamp, among, read, by decide, member⟩

end Overlap

/-- A client sees offsets, keys and texts. -/
def RecordObject.text (entry : RecordObject) : Nat × Option String × String :=
  (entry.offset, entry.key, entry.payload)

/-- What producers submitted, as it is read from an offset on. -/
def textsFrom (offset : Nat) (batch : List ProduceRecord) : List (Nat × Option String × String) :=
  (batch.zipIdx offset).map fun (record, offset) => (offset, record.key, fromUtf8Lossy record.payload)

theorem Numbered.texts {base : Nat} {records : List Record} (numbered : Numbered base records) :
    (records.map RecordObject.ofRecord).map RecordObject.text =
      textsFrom base (records.map Record.submitted) := by
  induction records generalizing base with
  | nil => rfl
  | cons record rest ih =>
      obtain ⟨offset, later⟩ := numbered_cons.mp numbered
      simp only [List.map_cons, textsFrom, List.zipIdx_cons]
      rw [ih later]
      simp [RecordObject.text, RecordObject.ofRecord, Record.submitted, offset, textsFrom]

/-- Whoever hears of records can read them: a subscriber's event leads to a stored
batch, and a fetch of what the event names returns that batch first, as far as the
limit goes and unless it is pruned. -/
theorem event_fetched {model : LogStoreModel} {broker : Broker model} (recalled : broker.Recalled)
    (even : (broker.appended.map Batch.announcement).Perm (broker.published.filter LogEvent.announces))
    {ops : Broadcast LogEvent} {Keeps : Nat → ops.Sender → List (ops.Receiver × List LogEvent) → Prop}
    (lawful : ops.Lawful Keeps) {capacity : Nat} {bus : BroadcastEventBus ops}
    (made : BroadcastEventBus.new ops capacity = some bus) {scene : Scene model ops}
    (reached : Scene.Reaches (fun _ _ _ => True) bus broker scene) {listener : Listener ops}
    (member : listener ∈ scene.audience.listeners) {object : EventObject}
    (heard : object ∈ listener.received.map EventObject.ofEvent) (appended : object.kind = "records_appended") :
    ∃ batch ∈ scene.tasks.world.appended, ∃ offset,
      object = ⟨"records_appended", batch.topic.asStr, some batch.partition, some offset,
        some (batch.submitted.length % u32Modulus)⟩ ∧
      ∀ (engine : LogConfig) {next : Broker model} {max : Nat} {found : FetchResultObject}
        {after : Broker model}, scene.tasks.world.Others next →
        Ends (Amid Broker.Others Broker.Answers)
          (QueryRoot.fetch engine object.topic batch.partition offset max) next (.ok found) after →
        after.trimmed batch.topic batch.partition ≤ offset →
        (found.records.take batch.submitted.length).map RecordObject.text =
          textsFrom offset (batch.submitted.take (engine.fetchLimit max)) := by
  obtain ⟨event, received, rfl⟩ := List.mem_map.mp heard
  cases event with
  | topicCreated topic partitions => simp [EventObject.ofEvent, LogEvent.kind] at appended
  | recordsTruncated topic partition newStart => simp [EventObject.ofEvent, LogEvent.kind] at appended
  | recordsAppended topic partition offset records =>
      obtain ⟨batch, stored, same⟩ := reached.heard even lawful made member rfl received
      cases same
      have here : scene.tasks.world.Recalled := recalled.trans (Broker.Others.tasks reached.tasks)
      have lies := here.lies stored
      obtain ⟨view, recalls⟩ := here
      have submitted := recalls.batches batch stored
      have size := congrArg List.length submitted
      rw [List.length_map] at size
      refine ⟨batch, stored, _, by rw [← size]; rfl, ?_⟩
      intro engine next max found after moves fetched kept
      obtain ⟨topic, result, valid, rfl, fetches⟩ := QueryRoot.fetch_ends fetched
      obtain rfl : batch.topic = topic := Except.ok.inj ((TopicName.new_asStr _).symm.trans valid)
      have reads := (lies.others moves).reads (.trans ⟨view, recalls⟩ moves) fetches kept
      have numbered := (lies.numbered ⟨view, recalls⟩).take (engine.fetchLimit max)
      rw [← List.map_take, ← reads] at numbered
      have texts := numbered.texts
      rw [← size, FetchResultObject.ofResult, ← List.map_take, texts, reads, List.map_map,
        ← submitted, List.map_take]
      congr 2
      exact List.map_congr_left fun record _ => model.readBack_submitted record

/-- A subscriber's event of the second of two overlapping calls, and the record it
leads to. -/
theorem event_fetched_second :
    ∃ (scene : Scene memoryStore (Channel.broadcast LogEvent))
        (listener : Listener (Channel.broadcast LogEvent)) (found : FetchResultObject)
        (after : Broker memoryStore),
      Scene.Reaches (fun _ _ _ => True) quietBus (soloBroker .default 0 0 []) scene ∧
      listener ∈ scene.audience.listeners ∧
      ⟨"records_appended", soloTopic.name.asStr, some 0, some 1, some 1⟩ ∈
        listener.received.map EventObject.ofEvent ∧
      Ends (Amid Broker.Others Broker.Answers) (QueryRoot.fetch smallEngine soloTopic.name.asStr 0 1 1)
        scene.tasks.world (.ok found) after ∧
      (found.records.take 1).map RecordObject.text = [(1, none, "\x01")] := by
  obtain ⟨scene, listener, reached, member, _, received, _, same⟩ :=
    @pair_heard (fun _ _ _ => True) (fun _ _ _ _ => trivial) (fun _ => trivial) fun _ => trivial
  have heard : ⟨"records_appended", soloTopic.name.asStr, some 0, some 1, some 1⟩ ∈
      listener.received.map EventObject.ofEvent := by
    rw [received]
    decide
  obtain ⟨batch, stored, offset, object, reads⟩ := event_fetched soloBroker_recalled (by decide)
    (Channel.lawful LogEvent) quietBus_new reached member heard rfl
  obtain ⟨records, rfl⟩ : ∃ records, batch = ⟨soloTopic.name, 0, plainBatch, records⟩ := by
    rw [same] at stored
    rcases List.mem_cons.mp stored with rfl | other
    · exact ⟨_, rfl⟩
    · exact ⟨_, List.mem_singleton.mp other⟩
  cases object
  have fetched := @Broker.fetch_runs memoryStore scene.tasks.world soloTopic.name 0 _
    (soloStore ⟨[plainRecord 0, plainRecord 1], 0, 2, 1, 2⟩ 2) smallEngine 1 1 1
    ⟨[plainRecord 1], 2, 2⟩ (by decide) (by rw [same]; rfl) rfl
  have read := @Ends.amid _ _ _ _ Broker.Others _ _ _ _ _ (fun _ => .refl) (QueryRoot.fetch_runs fetched)
  refine ⟨scene, listener, _, _, reached, member, heard, read, ?_⟩
  exact reads smallEngine .refl read (Nat.zero_le _)

end ConnectForge
