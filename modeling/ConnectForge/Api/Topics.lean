import ConnectForge.Core.Engine
import ConnectForge.Infra.RootedStore
import ConnectForge.Infra.StoreInvariants

namespace ConnectForge

open Data Interaction

/-! The topics of the GraphQL schema. -/

structure TopicObject where
  name : String
  partitions : Nat
  segmentMaxRecords : Nat
  maxRecords : Nat
deriving DecidableEq

def TopicObject.ofConfig (config : TopicConfig) : TopicObject where
  name := config.name.asStr
  partitions := config.partitions
  segmentMaxRecords := config.retention.segmentMaxRecords
  maxRecords := config.retention.maxRecords

/-- `LogEngine::topics`. -/
def engineTopics : EngineProgram (Except CoreError (List TopicConfig)) :=
  storeCall (Program.ask (EngineCall.store .topics))

/-! Errors are reported by their texts. -/

namespace QueryRoot

def topic (name : String) : EngineProgram (Except String (Option TopicObject)) :=
  match TopicName.new name with
  | .error reason => return .error reason.toText
  | .ok want => do
      match ← engineTopics with
      | .error reason => return .error reason.toText
      | .ok configs =>
          return .ok ((configs.find? fun config => config.name = want).map TopicObject.ofConfig)

end QueryRoot

namespace MutationRoot

def createTopic (engine : LogConfig) (name : String) (partitions segmentMaxRecords maxRecords : Nat) :
    EngineProgram (Except String TopicObject) :=
  match TopicName.new name with
  | .error reason => return .error reason.toText
  | .ok topic => do
      let retention := { segmentMaxRecords, maxRecords }
      match ← engine.createTopic topic partitions retention with
      | .error reason => return .error reason.toText
      | .ok () => return .ok { name := topic.asStr, partitions, segmentMaxRecords, maxRecords }

end MutationRoot

/-- What the schema relies on of a store: its topics are filed under their own
names, listed, and listed as they were created.  Everything else may fail. -/
structure TopicStore where
  Store : Type
  answers : (request : StoreCall) → Store → request.Answer → Store → Prop
  Filed : Store → Prop
  config? : Store → TopicName → Option TopicConfig
  step : ∀ {request store answer after}, Filed store → answers request store answer after → Filed after
  listed : ∀ {store answer after}, Filed store → answers .topics store answer after →
    ∃ configs, answer = .ok configs ∧ after = store ∧
      ∀ name, configs.find? (fun config => config.name = name) = config? store name
  created : ∀ {config store after}, Filed store → answers (.createTopic config) store (.ok true) after →
    config? after config.name = some config

namespace TopicStore

variable {model : TopicStore} {store after : model.Store}

/-- The answers to the engine's calls.  The limiter, the clock, the counter and
the bus answer as they like. -/
def Answers : (request : EngineCall) → model.Store → request.Answer → model.Store → Prop
  | .store request, store, answer, after => model.answers request store answer after
  | .tryAcquire _, store, _, after => after = store
  | .nextSlot, store, _, after => after = store
  | .now, store, _, after => after = store
  | .publish _, store, _, after => after = store

/-- The states of a broker over a store that was opened with some topics, after
any calls of any tasks. -/
inductive Reached : model.Store → Prop where
  | opened {initial} (filed : model.Filed initial) : Reached initial
  | called {before request answer later} (earlier : Reached before)
      (answered : Answers request before answer later) : Reached later

theorem filed_step {request : EngineCall} {answer : request.Answer} (filed : model.Filed store)
    (answered : Answers request store answer after) : model.Filed after := by
  cases request with
  | store request => exact model.step filed answered
  | tryAcquire count | nextSlot | now | publish event =>
      obtain rfl : after = store := answered
      exact filed

theorem Reached.filed (reached : Reached store) : model.Filed store := by
  induction reached with
  | opened filed => exact filed
  | called _ answered ih => exact filed_step ih answered

theorem storeCall_filed {request : StoreCall} {α : Type} {op : EngineProgram (Except PortError α)}
    {result : Except CoreError α} (filed : model.Filed store)
    (ended : Ends Answers (storeCall op) store result after)
    (asks : op.Makes fun call => call = .store request) : model.Filed after :=
  ended.keeps model.Filed (makes_storeCall asks)
    (fun _ _ _ _ _ before answered => filed_step before answered) filed

/-- A topic the engine has created is in the store as it was asked for, with the
default for a partition count of zero. -/
theorem createTopic_ends {engine : LogConfig} {name : TopicName} {partitions : Nat}
    {retention : RetentionPolicy} (filed : model.Filed store)
    (ended : Ends Answers (engine.createTopic name partitions retention) store (.ok ()) after) :
    model.Filed after ∧ (partitions = 0 → engine.defaultPartitions ≠ 0) ∧ model.config? after name = some {
      name
      partitions := if partitions = 0 then engine.defaultPartitions else partitions
      retention } := by
  unfold LogConfig.createTopic at ended
  dsimp only at ended
  split at ended
  · cases (ends_done ended).1
  rename_i config built
  have nonzero : (if partitions = 0 then engine.defaultPartitions else partitions) ≠ 0 := by
    intro zero
    rw [zero] at built
    cases built
  obtain ⟨same, _⟩ := TopicConfig.new_eq built
  obtain ⟨listed, middle, lists, rest⟩ := ends_bind ended
  have before : model.Filed middle := storeCall_filed filed lists (makes_ask rfl)
  cases listed with
  | error reason => cases (ends_done rest).1
  | ok existing =>
      dsimp only at rest
      split at rest
      · cases (ends_done rest).1
      obtain ⟨made, stored, creates, rest⟩ := ends_bind rest
      have there : model.Filed stored := storeCall_filed before creates (makes_ask rfl)
      have safe : Safe Answers Eq (fun _ _ => True)
          (fun result later => ∀ made, result = .ok made → made = true →
            model.config? later config.name = some config)
          (storeCall (Program.ask (EngineCall.store (.createTopic config)))) middle := by
        refine safe_storeCall model.Filed ?_ before
        intro world filed
        refine Safe.ask ?_
        intro answer later answered
        refine ⟨?_, fun _ _ => model.step filed answered⟩
        rintro _ rfl rfl
        exact model.created filed answered
      rcases made with reason | ⟨_ | _⟩
      · cases (ends_done rest).1
      · cases (ends_done rest).1
      · obtain ⟨_, announced, quiet, rest⟩ := ends_ask rest
        obtain ⟨_, rfl⟩ := ends_done rest
        obtain rfl : after = stored := quiet
        have found := safe.ends (fun _ => rfl) creates true rfl rfl
        subst same
        exact ⟨there, fun zero => by simpa [zero] using nonzero, found⟩

theorem engineTopics_ends (filed : model.Filed store) {result : Except CoreError (List TopicConfig)}
    (ended : Ends Answers engineTopics store result after) :
    ∃ configs, result = .ok configs ∧
      ∀ name, configs.find? (fun config => config.name = name) = model.config? store name := by
  obtain ⟨answer, middle, retried, rest⟩ := ends_bind ended
  obtain ⟨first, asked, answered, more⟩ := ends_call retried
  obtain ⟨configs, rfl, _, lists⟩ := model.listed filed answered
  obtain ⟨rfl, rfl⟩ := ends_done more
  obtain ⟨rfl, _⟩ := ends_done rest
  exact ⟨configs, rfl, lists⟩

theorem topic_ends {name : String} {wanted : TopicName} (valid : TopicName.new name = .ok wanted)
    (filed : model.Filed store) {result : Except String (Option TopicObject)}
    (ended : Ends Answers (QueryRoot.topic name) store result after) :
    result = .ok ((model.config? store wanted).map TopicObject.ofConfig) := by
  unfold QueryRoot.topic at ended
  rw [valid] at ended
  obtain ⟨answer, middle, asked, rest⟩ := ends_bind ended
  obtain ⟨configs, rfl, lists⟩ := engineTopics_ends filed asked
  rw [← lists wanted]
  exact (ends_done rest).1

/-- What `createTopic` reports is what is there, unless the partition count was
left to the default. -/
theorem created_reported {engine : LogConfig} {middle final : model.Store} (reached : Reached store)
    {name : String} {partitions segmentMaxRecords maxRecords : Nat} {object : TopicObject}
    {result : Except String (Option TopicObject)}
    (created : Ends Answers
      (MutationRoot.createTopic engine name partitions segmentMaxRecords maxRecords) store (.ok object) middle)
    (queried : Ends Answers (QueryRoot.topic name) middle result final) :
    result = .ok (some object) ↔ partitions ≠ 0 := by
  unfold MutationRoot.createTopic at created
  split at created
  · cases (ends_done created).1
  rename_i topic valid
  obtain ⟨answer, stored, creates, rest⟩ := ends_bind created
  rcases answer with reason | ⟨⟩
  · cases (ends_done rest).1
  obtain ⟨reported, rfl⟩ := ends_done rest
  cases reported
  obtain ⟨filed, nonzero, found⟩ := createTopic_ends reached.filed creates
  rw [topic_ends valid filed queried, found]
  by_cases zero : partitions = 0
  · simp [TopicObject.ofConfig, zero, nonzero zero]
  · simp [TopicObject.ofConfig, zero]

end TopicStore

section Stores

/-! Both stores. -/

open Infra

theorem find?_configs {Topic : Type} {config : Topic → TopicConfig} {topics : OrderedMap String Topic}
    (filed : topics.Filed fun topic => (config topic).name.asStr) (name : TopicName) :
    (topics.values.map config).find? (fun config => config.name = name) =
      (topics.find? name.asStr).map config := by
  rw [List.find?_map, ← filed.find?_values]
  congr 2
  funext topic
  exact decide_eq_decide.mpr ⟨congrArg TopicName.asStr, StoreView.asStr_injective⟩

def memoryTopics : TopicStore where
  Store := MemoryLogStore
  answers request store answer after := store.handle request = some (answer, after)
  Filed store := store.topics.Filed fun topic => topic.config.name.asStr
  config? store name := (store.topics.find? name.asStr).map Topic.config
  step {request store answer after} filed called := by
    cases request with
    | createTopic config =>
        have created := store.createTopic_after config
        rw [Option.some.inj called] at created
        rcases created with rfl | rfl
        · exact filed
        · exact filed.insert rfl
    | append topic partition records timestamp =>
        rcases MemoryLogStore.append_cases called with ⟨_, rfl⟩ | ⟨state, part, _, found, _, _, _, rfl⟩
        · exact filed
        · have here := filed.find? found
          exact filed.insert here
    | fetch topic partition start max =>
        obtain rfl := MemoryLogStore.fetch_after (Option.some.inj called)
        exact filed
    | topics | partitionCount topic | stats =>
        cases called
        exact filed
  listed filed called := by
    cases called
    exact ⟨_, rfl, rfl, find?_configs filed⟩
  created {config store after} _ called := by
    have created := Option.some.inj called
    unfold MemoryLogStore.createTopic at created
    split at created
    · cases created
    · cases created
      rw [OrderedMap.find?_insert, if_pos rfl]
      rfl

/-- The file store with any I/O errors. -/
def fileTopics : TopicStore where
  Store := FileLogStore
  answers request store answer after := ∃ faults, store.handle faults request = some (answer, after)
  Filed store := store.topics.Filed fun topic => topic.config.name.asStr
  config? store name := (store.topics.find? name.asStr).map TopicState.config
  step {request store answer after} filed called := by
    obtain ⟨faults, called⟩ := called
    cases request with
    | createTopic config =>
        have created := Option.some.inj called
        unfold FileLogStore.createTopic at created
        split at created
        · cases created
          exact filed
        · split at created
          · cases created
            exact filed
          · cases created
            exact filed.insert rfl
    | append topic partition records timestamp =>
        rcases FileLogStore.append_cases called with ⟨_, rfl⟩ | ⟨state, part, _, _, found, _, _, rfl⟩
        · exact filed
        · have here := filed.find? found
          exact filed.insert here
    | fetch topic partition start max =>
        obtain rfl := FileLogStore.fetch_after (Option.some.inj called)
        exact filed
    | topics | partitionCount topic | stats =>
        cases called
        exact filed
  listed filed called := by
    obtain ⟨faults, called⟩ := called
    cases called
    exact ⟨_, rfl, rfl, find?_configs filed⟩
  created {config store after} _ called := by
    obtain ⟨faults, called⟩ := called
    have created := Option.some.inj called
    unfold FileLogStore.createTopic at created
    split at created
    · cases created
    · split at created
      · cases created
      · cases created
        rw [OrderedMap.find?_insert, if_pos rfl]
        rfl

/-- Whatever is in its directory, a file store opens with its topics under their
own names. -/
theorem Infra.Inner.open_filed {json : TopicJson} {listing : Pathname → List String} {root : Pathname}
    {tree later : FileTree} {inner : Inner} (opened : Inner.open json listing root tree = .ok (inner, later)) :
    inner.topics.Filed fun topic => topic.config.name.asStr := by
  have recovers : ∀ (names : List String) (before : Inner) (tree : FileTree),
      (before.topics.Filed fun topic => topic.config.name.asStr) →
      Inner.recover json listing names before tree = .ok (inner, later) →
      inner.topics.Filed fun topic => topic.config.name.asStr := by
    intro names
    induction names with
    | nil =>
        rintro before tree filed ended
        cases ended
        exact filed
    | cons name rest ih =>
        intro before tree filed ended
        unfold Inner.recover at ended
        split at ended
        · cases ended
        · exact ih _ _ filed ended
        · exact ih { before with topics := _ } _ (filed.insert rfl) ended
  unfold Inner.open at opened
  split at opened
  · cases opened
  · exact recovers _ _ _ OrderedMap.Filed.empty opened

def eventsConfig (partitions : Nat) : TopicConfig where
  name := ⟨"events", valid_events⟩
  partitions
  retention := { segmentMaxRecords := 1, maxRecords := 0 }

def threeEngine : LogConfig := { LogConfig.default with defaultPartitions := 3 }

/-- A topic on an empty memory store, created and asked for. -/
theorem events_created {partitions count : Nat} (effective : (if partitions = 0 then 3 else partitions) = count)
    (positive : count ≠ 0) :
    ∃ middle,
      Ends (@TopicStore.Answers memoryTopics) (MutationRoot.createTopic threeEngine "events" partitions 1 0)
        MemoryLogStore.new (.ok ⟨"events", partitions, 1, 0⟩) middle ∧
      Ends (@TopicStore.Answers memoryTopics) (QueryRoot.topic "events") middle
        (.ok (some ⟨"events", count, 1, 0⟩)) middle := by
  let config := eventsConfig count
  let after : MemoryLogStore := { MemoryLogStore.new with
    topics := OrderedMap.empty.insert "events" { config, partitions := List.replicate count .default } }
  have named : TopicName.new "events" = .ok config.name := rfl
  have built : TopicConfig.new config.name count config.retention = .ok config := by
    simp [TopicConfig.new, positive, config, eventsConfig, RetentionPolicy.validate]
  have lists : Ends (@TopicStore.Answers memoryTopics) (storeCall (Program.ask (EngineCall.store .topics)))
      MemoryLogStore.new (.ok []) MemoryLogStore.new :=
    storeCall_first (Ends.ask rfl)
  have creates : Ends (@TopicStore.Answers memoryTopics)
      (storeCall (Program.ask (EngineCall.store (.createTopic config)))) MemoryLogStore.new (.ok true) after :=
    storeCall_first (Ends.ask rfl)
  have listsAgain : Ends (@TopicStore.Answers memoryTopics) engineTopics after (.ok [config]) after :=
    storeCall_first (Ends.ask rfl)
  have announces : ∀ event, Ends (@TopicStore.Answers memoryTopics)
      (Program.ask (EngineCall.publish event)) after (.ok ()) after := fun event => Ends.ask rfl
  refine ⟨after, ?_, ?_⟩
  · have engine : Ends (@TopicStore.Answers memoryTopics)
        (threeEngine.createTopic config.name partitions config.retention) MemoryLogStore.new (.ok ()) after := by
      have default : threeEngine.defaultPartitions = 3 := rfl
      unfold LogConfig.createTopic
      simp only [default, effective, built]
      exact Ends.bind lists (Ends.bind creates (Ends.bind (announces _) .done))
    unfold MutationRoot.createTopic
    rw [named]
    exact Ends.bind engine .done
  · unfold QueryRoot.topic
    rw [named]
    refine Ends.bind listsAgain ?_
    have found : [config].find? (fun other => other.name = config.name) = some config := by simp
    simp only [found]
    exact .done

/-- A topic with a partition count of its own. -/
theorem created_reported_two :
    ∃ middle, Ends (@TopicStore.Answers memoryTopics) (MutationRoot.createTopic threeEngine "events" 2 1 0)
        MemoryLogStore.new (.ok ⟨"events", 2, 1, 0⟩) middle ∧
      ∀ result final, Ends (@TopicStore.Answers memoryTopics) (QueryRoot.topic "events") middle result final →
        result = .ok (some ⟨"events", 2, 1, 0⟩) := by
  obtain ⟨middle, created, _⟩ := @events_created 2 2 rfl (by decide)
  have filed : memoryTopics.Filed MemoryLogStore.new := by
    change OrderedMap.empty.Filed fun topic : Topic => topic.config.name.asStr
    exact OrderedMap.Filed.empty
  exact ⟨middle, created, fun result final queried =>
    (TopicStore.created_reported (.opened filed) created queried).mpr (by decide)⟩

/-- A topic that leaves its partition count to the default: it is reported with
none, and has three. -/
theorem created_misreported :
    ∃ middle, Ends (@TopicStore.Answers memoryTopics) (MutationRoot.createTopic threeEngine "events" 0 1 0)
        MemoryLogStore.new (.ok ⟨"events", 0, 1, 0⟩) middle ∧
      Ends (@TopicStore.Answers memoryTopics) (QueryRoot.topic "events") middle
        (.ok (some ⟨"events", 3, 1, 0⟩)) middle ∧
      (⟨"events", 0, 1, 0⟩ : TopicObject) ≠ ⟨"events", 3, 1, 0⟩ := by
  obtain ⟨middle, created, queried⟩ := @events_created 0 3 rfl (by decide)
  exact ⟨middle, created, queried, by decide⟩

end Stores

end ConnectForge
