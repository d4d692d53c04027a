import ConnectForge.Broker.Turns

namespace ConnectForge

open Data Interaction Infra

/-! Any number of `create_topic` calls at once.  A call remembers how many topics
it was told there are. -/

namespace Capacity

def note (listed : Option Nat) : (request : EngineCall) → request.Answer → Option Nat
  | .store .topics, .ok existing => some existing.length
  | _, _ => listed

def Permits (engine : LogConfig) (listed : Option Nat) : EngineCall → Prop
  | .store .topics => True
  | .store (.createTopic _) => ∃ count, listed = some count ∧ count < engine.maxTopics
  | .publish _ => True
  | _ => False

def Creates (engine : LogConfig) (program : EngineProgram (Except CoreError Unit)) : Prop :=
  ∃ name partitions retention, program = engine.createTopic name partitions retention

theorem follows_createTopic (engine : LogConfig) (name : TopicName) (partitions : Nat)
    (retention : RetentionPolicy) :
    (engine.createTopic name partitions retention).Follows (Permits engine) note (fun _ _ => True)
      none := by
  unfold LogConfig.createTopic
  dsimp only
  split
  · trivial
  rename_i config _
  refine (follows_storeCall (fun _ => True) (fun existing listed => listed = some existing.length) ?_
    trivial).bind ?_
  · intro listed _
    refine follows_ask trivial ?_
    rintro (reason | existing)
    · exact ⟨nofun, fun _ _ => trivial⟩
    · refine ⟨?_, nofun⟩
      intro value same
      cases same
      rfl
  rintro (reason | existing) listed ⟨known, _⟩
  · trivial
  dsimp only
  split
  · trivial
  rename_i room
  refine (follows_storeCall (fun listed => listed = some existing.length) (fun _ _ => True) ?_
    (known _ rfl)).bind ?_
  · intro listed same
    exact follows_ask ⟨_, same, Nat.lt_of_not_le room⟩ fun _ => ⟨fun _ _ => trivial, fun _ _ => same⟩
  rintro (reason | created) listed _
  · trivial
  cases created with
  | false => trivial
  | true => exact ⟨trivial, fun _ => trivial⟩

variable {model : LogStoreModel}

/-- No call creates a topic after another has since it read the list. -/
def Unraced (broker : Broker model) (listed : Option Nat) : EngineCall → Prop
  | .store (.createTopic config) => ∀ count, listed = some count →
      model.topicCount broker.store ≤ count ∨ model.partitionCount broker.store config.name ≠ none
  | _ => True

def Within (engine : LogConfig) (broker : Broker model) : Prop :=
  ∃ view, model.Shows broker.store view ∧ view.entries.length ≤ engine.maxTopics

theorem Within.step {engine : LogConfig} {broker after : Broker model} {listed : Option Nat}
    {request : EngineCall} {answer : request.Answer} (within : Within engine broker)
    (permitted : Permits engine listed request) (unraced : Unraced broker listed request)
    (answered : Broker.Answers request broker answer after) : Within engine after := by
  obtain ⟨view, shows, bound⟩ := within
  cases request with
  | store request =>
      obtain ⟨next, answers, shows'⟩ := model.step shows answered.1
      refine ⟨next, shows', ?_⟩
      cases request with
      | topics =>
          obtain ⟨_, rfl⟩ := answers
          exact bound
      | createTopic config =>
          rcases answers with ⟨_, rfl⟩ | ⟨absent, _, rfl⟩
          · exact bound
          obtain ⟨count, read, room⟩ := permitted
          have grows := view.length_insert_le config.name.asStr
            { config, partitions := List.replicate config.partitions .empty }
          rcases unraced count read with fewer | present
          · rw [model.topics shows] at fewer
            omega
          · rw [model.count shows, StoreView.count?, absent] at present
            exact absurd rfl present
      | partitionCount topic => cases permitted
      | append topic partition records timestamp => cases permitted
      | fetch topic partition start max => cases permitted
      | stats => cases permitted
  | publish event =>
      obtain ⟨_, rfl⟩ := answered
      exact ⟨view, shows, bound⟩
  | nextSlot => cases permitted
  | tryAcquire count => cases permitted
  | now => cases permitted

theorem sound (model : LogStoreModel) (engine : LogConfig) :
    Tasks.Sound (@Broker.Answers model) note none (Creates engine) Unraced (Permits engine)
      (fun _ _ => True) (Within engine) (fun _ _ => True) (fun _ _ => True) where
  follows := by
    rintro _ ⟨name, partitions, retention, rfl⟩
    exact follows_createTopic engine name partitions retention
  spawn _ _ := ⟨trivial, fun _ => trivial⟩
  step within _ permitted unraced answered :=
    ⟨within.step permitted unraced answered, trivial, fun _ _ _ => ⟨trivial, trivial⟩⟩
  symmetric _ := trivial

end Capacity

/-- However calls that create topics interleave: if none of them creates a topic
after another has since it read the list, there are never too many. -/
theorem topics_within_capacity {model : LogStoreModel} {engine : LogConfig} {broker : Broker model}
    {view : StoreView} (shows : model.Shows broker.store view)
    (within : model.topicCount broker.store ≤ engine.maxTopics)
    {state : Tasks (Broker model) (Option Nat) EngineCall EngineCall.Answer (Except CoreError Unit)}
    (reached : Tasks.Reaches Broker.Answers Capacity.note none (Capacity.Creates engine)
      Capacity.Unraced broker state) :
    model.topicCount state.world.store ≤ engine.maxTopics := by
  have start : Capacity.Within engine broker := ⟨view, shows, model.topics shows ▸ within⟩
  obtain ⟨view', shows', bound⟩ := ((Capacity.sound model engine).reaches start reached).world
  rw [model.topics shows']
  exact bound

def soleEngine : LogConfig := { LogConfig.default with maxTopics := 1 }

/-- Two calls that both read the empty list, and then both create a topic. -/
theorem capacity_exceeded :
    ∃ state : Tasks (Broker memoryStore) (Option Nat) EngineCall EngineCall.Answer
        (Except CoreError Unit),
      Tasks.Reaches Broker.Answers Capacity.note none (Capacity.Creates soleEngine)
        (fun _ _ _ => True) (.new memoryStore) state ∧
      soleEngine.maxTopics < memoryStore.topicCount state.world.store := by
  have lists : Broker.Answers (.store .topics) (.new memoryStore) (.ok []) (.new memoryStore) :=
    ⟨rfl, rfl, rfl, rfl⟩
  have creates : Broker.Answers (.store (.createTopic pairTopic)) (.new memoryStore) (.ok true)
      ⟨paired .default .default 0, 0, [], []⟩ := ⟨rfl, rfl, rfl, rfl⟩
  have createsAnother : Broker.Answers (.store (.createTopic soloTopic))
      ⟨paired .default .default 0, 0, [], []⟩ (.ok true)
      (⟨pairedSolo .default .default .default 0, 0, [], []⟩ : Broker memoryStore) := ⟨rfl, rfl, rfl, rfl⟩
  have spawned : Tasks.Reaches Broker.Answers Capacity.note none (Capacity.Creates soleEngine)
      (fun _ _ _ => True) (.new memoryStore) ⟨.new memoryStore,
        [⟨none, soleEngine.createTopic soloTopic.name 1 soloTopic.retention⟩,
         ⟨none, soleEngine.createTopic pairTopic.name 2 pairTopic.retention⟩]⟩ :=
    Tasks.Reaches.start (Tasks.Reaches.start .refl ⟨_, _, _, rfl⟩) ⟨_, _, _, rfl⟩
  have bothListed := Tasks.Reaches.answer [_] (Tasks.Reaches.answer [] spawned trivial lists) trivial lists
  have oneCreated := Tasks.Reaches.answer [_] bothListed trivial creates
  exact ⟨_, Tasks.Reaches.answer [] oneCreated trivial createsAnother, by decide⟩

/-- Two calls race for one topic: both read the empty list, one creates the topic
and fills the store, and the other is told that it exists. -/
theorem topics_within_capacity_full :
    ∃ state : Tasks (Broker memoryStore) (Option Nat) EngineCall EngineCall.Answer
        (Except CoreError Unit),
      Tasks.Reaches Broker.Answers Capacity.note none (Capacity.Creates soleEngine) Capacity.Unraced
        (.new memoryStore) state ∧
      state.tasks.map Task.program =
        [.call (.publish (.topicCreated pairTopic.name 2)) fun _ => .done (.ok ()),
          .done (.error (.topicExists pairTopic.name.asStr))] ∧
      memoryStore.topicCount state.world.store = 1 ∧
      memoryStore.topicCount state.world.store ≤ soleEngine.maxTopics := by
  let created : Broker memoryStore := ⟨paired .default .default 0, 0, [], []⟩
  have lists : Broker.Answers (.store .topics) (.new memoryStore) (.ok []) (.new memoryStore) :=
    ⟨rfl, rfl, rfl, rfl⟩
  have creates : Broker.Answers (.store (.createTopic pairTopic)) (.new memoryStore) (.ok true) created :=
    ⟨rfl, rfl, rfl, rfl⟩
  have exists_already : Broker.Answers (.store (.createTopic pairTopic)) created (.ok false) created :=
    ⟨rfl, rfl, rfl, rfl⟩
  have spawned : Tasks.Reaches Broker.Answers Capacity.note none (Capacity.Creates soleEngine)
      Capacity.Unraced (.new memoryStore) ⟨.new memoryStore,
        [⟨none, soleEngine.createTopic pairTopic.name 2 pairTopic.retention⟩,
         ⟨none, soleEngine.createTopic pairTopic.name 2 pairTopic.retention⟩]⟩ :=
    Tasks.Reaches.start (Tasks.Reaches.start .refl ⟨_, _, _, rfl⟩) ⟨_, _, _, rfl⟩
  have bothListed := Tasks.Reaches.answer [_] (Tasks.Reaches.answer [] spawned trivial lists) trivial lists
  have first : Capacity.Unraced (.new memoryStore) (some 0) (.store (.createTopic pairTopic)) :=
    fun _ _ => .inl (Nat.zero_le _)
  have second : Capacity.Unraced created (some 0) (.store (.createTopic pairTopic)) :=
    fun _ _ => .inr (by decide)
  have won := Tasks.Reaches.answer [] bothListed first creates
  have lost := Tasks.Reaches.answer [_] won second exists_already
  exact ⟨_, lost, rfl, rfl, topics_within_capacity memoryStore.fresh (Nat.zero_le _) lost⟩

end ConnectForge
