import Mathlib.Algebra.Order.Group.Multiset
import ConnectForge.Broker.LiveEvents
import ConnectForge.Infra.Bus
import ConnectForge.Interaction.Ledger

namespace ConnectForge

open Data Interaction Infra

/-! What `produce` tells the subscribers of the bus, however its calls
interleave. -/

def LogEvent.announces : LogEvent → Bool
  | recordsAppended _ _ _ _ => true
  | _ => false

namespace Live

variable {model : LogStoreModel}

def Owed.announcement (owed : Owed) : LogEvent :=
  .recordsAppended owed.topic owed.partition owed.baseOffset owed.records

def stored (broker : Broker model) : Multiset LogEvent := broker.appended.map Batch.announcement

def told (broker : Broker model) : Multiset LogEvent := broker.published.filter LogEvent.announces

def owes : Option Owed → Multiset LogEvent
  | none => 0
  | some owed => {owed.announcement}

section Steps

variable {broker after : Broker model}

theorem stored_same (same : after.appended = broker.appended) : stored after = stored broker := by
  simp [stored, same]

theorem stored_batch {batch : Batch} (grown : after.appended = broker.appended ++ [batch]) :
    stored after = stored broker + {batch.announcement} := by
  simp [stored, grown, ← Multiset.coe_add]

theorem told_same (same : after.published = broker.published) : told after = told broker := by
  simp [told, same]

theorem told_event {event : LogEvent} (grown : after.published = broker.published ++ [event]) :
    told after = told broker + if event.announces then {event} else 0 := by
  cases announces : event.announces <;> simp [told, grown, announces, ← Multiset.coe_add]

end Steps

/-- A stored batch is owed until it is announced, and announced once. -/
theorem ledger (model : LogStoreModel) :
    Ledger (@Broker.Answers model) note none Produces (fun _ _ _ => True) Permits
      (fun _ owed => owed = none) stored told owes where
  follows := by
    rintro _ ⟨topic, records, rfl⟩
    exact follows_produce topic records
  fresh := rfl
  step := by
    intro broker after owed request answer permitted _ answered
    cases request with
    | store request =>
        obtain ⟨_, _, grown, quiet⟩ := answered
        rw [told_same quiet]
        cases request with
        | append topic partition batch timestamp =>
            obtain ⟨rfl, _⟩ := permitted
            cases answer with
            | error reason =>
                rw [stored_same (grown.trans (List.append_nil _))]
                rfl
            | ok outcome =>
                rw [stored_batch grown]
                simp only [note, owes, Batch.announcement, Batch.base, Owed.announcement, produceResult]
                abel
        | partitionCount topic => rw [stored_same (grown.trans (List.append_nil _))]; rfl
        | createTopic config => cases permitted
        | topics => cases permitted
        | fetch topic partition start max => cases permitted
        | stats => cases permitted
    | publish event =>
        obtain ⟨_, same⟩ := answered
        have grown : after.published = broker.published ++ [event] := by rw [same]
        have quiet : after.appended = broker.appended := by rw [same]
        rw [told_event grown, stored_same quiet]
        cases event with
        | recordsAppended topic partition baseOffset records =>
            subst permitted
            simp only [note, owes, Owed.announcement, LogEvent.announces, ↓reduceIte]
            abel
        | topicCreated topic partitions => simp [note, LogEvent.announces]
        | recordsTruncated topic partition newStart => simp [note, LogEvent.announces]
    | nextSlot =>
        obtain ⟨_, rfl⟩ := answered
        rfl
    | tryAcquire count =>
        cases answered
        rfl
    | now =>
        cases answered
        rfl

/-- What was announced was stored. -/
theorem told_stored {broker : Broker model}
    (even : (broker.appended.map Batch.announcement).Perm (broker.published.filter LogEvent.announces))
    {state : Tasks (Broker model) (Option Owed) EngineCall EngineCall.Answer
      (Except CoreError ProduceResult)}
    (reached : Tasks.Reaches Broker.Answers note none Produces (fun _ _ _ => True) broker state) :
    told state.world ≤ stored state.world := by
  have level : stored broker = told broker := Multiset.coe_eq_coe.mpr even
  rw [(ledger model).balanced level reached]
  exact Multiset.le_add_right _ _

end Live

/-- The calls in progress and the subscribers of the bus they publish to. -/
structure Scene (model : LogStoreModel) (ops : Broadcast LogEvent) where
  tasks : Tasks (Broker model) (Option Live.Owed) EngineCall EngineCall.Answer
    (Except CoreError ProduceResult)
  audience : Audience ops

namespace Scene

variable {model : LogStoreModel} {ops : Broadcast LogEvent}
  (allowed : Broker model → Option Live.Owed → EngineCall → Prop)

inductive Step : Scene model ops → Scene model ops → Prop where
  | calls {tasks later audience events}
      (step : Tasks.Step Broker.Answers Live.note none Live.Produces allowed tasks later)
      (told : later.world.published = tasks.world.published ++ events) :
      Step ⟨tasks, audience⟩ ⟨later, events.foldl Audience.publish audience⟩
  | listens {tasks audience after} (moves : Audience.Moves audience after) :
      Step ⟨tasks, audience⟩ ⟨tasks, after⟩

def Reaches (bus : BroadcastEventBus ops) (broker : Broker model) (scene : Scene model ops) : Prop :=
  Relation.ReflTransGen (Step allowed) ⟨⟨broker, []⟩, ⟨bus, []⟩⟩ scene

variable {allowed} {bus : BroadcastEventBus ops} {broker : Broker model} {scene : Scene model ops}

theorem listeners_publish (events : List LogEvent) (audience : Audience ops) :
    (events.foldl Audience.publish audience).listeners = audience.listeners.map fun listener =>
      { listener with published := listener.published ++ events } := by
  induction events generalizing audience with
  | nil => simp
  | cons event rest ih => simp [ih, Audience.publish, Listener.hear]

theorem reaches_publish {audience : Audience ops} (reached : Audience.Reaches bus audience)
    (events : List LogEvent) : Audience.Reaches bus (events.foldl Audience.publish audience) := by
  induction events generalizing audience with
  | nil => exact reached
  | cons event rest ih => exact ih (reached.tail (.publish event))

theorem Reaches.tasks (reached : Reaches allowed bus broker scene) :
    Tasks.Reaches Broker.Answers Live.note none Live.Produces allowed broker scene.tasks := by
  induction reached with
  | refl => exact .refl
  | tail _ step ih =>
      cases step with
      | calls step _ => exact ih.tail step
      | listens _ => exact ih

theorem Reaches.audience (reached : Reaches allowed bus broker scene) :
    Audience.Reaches bus scene.audience := by
  induction reached with
  | refl => exact .refl
  | tail _ step ih =>
      cases step with
      | calls _ _ => exact reaches_publish ih _
      | listens moves => exact ih.tail (.moves moves)

/-- A subscriber has been told of everything published since it came. -/
theorem Reaches.overheard (reached : Reaches allowed bus broker scene) :
    ∀ listener ∈ scene.audience.listeners, listener.published <:+ scene.tasks.world.published := by
  induction reached with
  | refl => simp
  | tail _ step ih =>
      cases step with
      | @calls tasks later audience events step told =>
          intro listener member
          rw [listeners_publish] at member
          obtain ⟨earlier, known, rfl⟩ := List.mem_map.mp member
          obtain ⟨front, whole⟩ := ih earlier known
          exact ⟨front, by rw [told, ← whole, List.append_assoc]⟩
      | listens moves =>
          cases moves with
          | subscribe answered =>
              rw [List.forall_mem_cons]
              exact ⟨List.nil_suffix, ih⟩
          | poll answered =>
              rw [List.forall_mem_append, List.forall_mem_cons] at ih ⊢
              exact ih
          | unsubscribe =>
              rw [List.forall_mem_append, List.forall_mem_cons] at ih
              rw [List.forall_mem_append]
              exact ⟨ih.1, ih.2.2⟩

theorem published_grows {tasks later : Tasks (Broker model) (Option Live.Owed) EngineCall
      EngineCall.Answer (Except CoreError ProduceResult)}
    (step : Tasks.Step Broker.Answers Live.note none Live.Produces allowed tasks later) :
    tasks.world.published <+: later.world.published := by
  cases step with
  | spawn _ => exact List.prefix_refl _
  | @answer world after memo request resume answer before rest met answered =>
      cases request with
      | store request => rw [answered.2.2.2]
      | publish event =>
          obtain ⟨_, rfl⟩ := answered
          exact List.prefix_append _ _
      | nextSlot =>
          obtain ⟨_, rfl⟩ := answered
          exact List.prefix_refl _
      | tryAcquire count =>
          cases answered
          exact List.prefix_refl _
      | now =>
          cases answered
          exact List.prefix_refl _

/-- Every run of calls can be listened to. -/
theorem overhear {audience : Audience ops}
    {tasks later : Tasks (Broker model) (Option Live.Owed) EngineCall EngineCall.Answer
      (Except CoreError ProduceResult)}
    (run : Relation.ReflTransGen
      (Tasks.Step Broker.Answers Live.note none Live.Produces allowed) tasks later) :
    ∃ events, later.world.published = tasks.world.published ++ events ∧
      Relation.ReflTransGen (Step allowed) ⟨tasks, audience⟩
        ⟨later, events.foldl Audience.publish audience⟩ := by
  induction run with
  | refl => exact ⟨[], (List.append_nil _).symm, .refl⟩
  | tail _ step ih =>
      obtain ⟨events, told, overheard⟩ := ih
      obtain ⟨more, grown⟩ := published_grows step
      refine ⟨events ++ more, by rw [← grown, told, List.append_assoc], ?_⟩
      rw [List.foldl_append]
      exact overheard.tail (.calls step grown.symm)

/-- The records a subscriber hears of are those of a stored batch. -/
theorem Reaches.heard (reached : Reaches (fun _ _ _ => True) bus broker scene)
    (even : (broker.appended.map Batch.announcement).Perm (broker.published.filter LogEvent.announces))
    {Keeps : Nat → ops.Sender → List (ops.Receiver × List LogEvent) → Prop} (lawful : ops.Lawful Keeps)
    {capacity : Nat} (made : BroadcastEventBus.new ops capacity = some bus) {listener : Listener ops}
    (member : listener ∈ scene.audience.listeners) {event : LogEvent} (announces : event.announces = true)
    (received : event ∈ listener.received) :
    ∃ batch ∈ scene.tasks.world.appended, batch.announcement = event := by
  have wanted := ((bus_hears lawful made reached.audience member).2).subset received
  have published := (reached.overheard listener member).subset (List.mem_filter.mp wanted).1
  have told : event ∈ Live.told scene.tasks.world := List.mem_filter.mpr ⟨published, announces⟩
  exact List.mem_map.mp (Multiset.mem_of_le (Live.told_stored even reached.tasks) told)

end Scene

theorem announced_filter {topics : List TopicName} {topic : TopicName}
    (wanted : topics = [] ∨ topic ∈ topics) (events : List LogEvent) (partition : Nat) :
    announced (events.filter (accepts topics)) topic partition = announced events topic partition := by
  induction events with
  | nil => rfl
  | cons event rest ih =>
      cases accepted : accepts topics event with
      | true =>
          rw [List.filter_cons_of_pos accepted]
          simp only [announced, List.flatMap_cons] at ih ⊢
          rw [ih]
      | false =>
          have other : event.topic ≠ topic := by
            intro same
            simp only [accepts, Bool.or_eq_false_iff, List.any_eq_false] at accepted
            rcases wanted with none | known
            · simp [none] at accepted
            · exact accepted.2 topic known (by simp [same])
          have silent : event.recordsOn topic partition = [] := by
            cases event with
            | recordsAppended eventTopic eventPartition baseOffset records =>
                exact if_neg fun both => other both.1
            | topicCreated eventTopic partitions => rfl
            | recordsTruncated eventTopic eventPartition newStart => rfl
          rw [List.filter_cons_of_neg (by simp [accepted]), ih]
          simp only [announced, List.flatMap_cons, silent, List.nil_append]

/-- What was announced begins what was stored, as long as every batch is announced
in its turn. -/
theorem Live.replays_reached {model : LogStoreModel} {broker : Broker model} {view : StoreView}
    (shows : model.Shows broker.store view) (unused : broker.appended = []) (silent : broker.published = [])
    {state : Tasks (Broker model) (Option Owed) EngineCall EngineCall.Answer
      (Except CoreError ProduceResult)}
    (reached : Tasks.Reaches Broker.Answers note none Produces InOrder broker state) :
    Replays (fun topic partition => (view.log? topic partition).elim 0 PartitionLog.next)
      state.world := by
  apply ((sound model _).reaches _ reached).world
  refine ⟨⟨view, shows, ?_⟩, ?_, ?_⟩
  · intro topic partition log found
    simp [unused, recordsOn, found]
  · intro topic partition
    rw [unused]
    exact .nil _
  · intro topic partition
    simp [silent, announced]

/-- Tailing over the bus: if each `produce` announces its batch after everything
below it, and no subscriber has lagged, what a subscriber to a topic receives of
one of its partitions is an unbroken piece of what that partition was given. -/
theorem subscribers_tail {model : LogStoreModel} {broker : Broker model} {view : StoreView}
    (shows : model.Shows broker.store view) (unused : broker.appended = []) (silent : broker.published = [])
    {ops : Broadcast LogEvent} {Keeps : Nat → ops.Sender → List (ops.Receiver × List LogEvent) → Prop}
    (lawful : ops.Lawful Keeps) {capacity : Nat} {bus : BroadcastEventBus ops}
    (made : BroadcastEventBus.new ops capacity = some bus) {scene : Scene model ops}
    (reached : Scene.Reaches Live.InOrder bus broker scene) {listener : Listener ops}
    (member : listener ∈ scene.audience.listeners) (prompt : scene.audience.bus.laggedTotal = 0)
    {topic : TopicName}
    (wanted : listener.subscription.topics = [] ∨ topic ∈ listener.subscription.topics)
    (partition : Nat) :
    ∃ before after, recordsOn scene.tasks.world.appended topic partition =
        before ++ (announced listener.received topic partition ++ after) ∧
      Numbered ((view.log? topic partition).elim 0 PartitionLog.next + before.length)
        (announced listener.received topic partition) := by
  obtain ⟨_, numbered, begins⟩ := Live.replays_reached shows unused silent reached.tasks
  obtain ⟨earlier, whole⟩ := reached.overheard listener member
  obtain ⟨later, received⟩ := (bus_hears lawful made reached.audience member).1 prompt
  obtain ⟨rest, stored⟩ := begins topic partition
  -- Published is what came before the subscriber, what it received and what it has yet to.
  have heard : announced listener.published topic partition =
      announced listener.received topic partition ++ announced later topic partition := by
    rw [← announced_filter wanted listener.published, ← Listener.wanted, ← received]
    exact List.flatMap_append
  have split : recordsOn scene.tasks.world.appended topic partition =
      announced earlier topic partition ++ (announced listener.received topic partition ++
        (announced later topic partition ++ rest)) := by
    rw [← stored, ← whole, announced, List.flatMap_append]
    change announced earlier topic partition ++ announced listener.published topic partition ++ rest = _
    simp only [heard, List.append_assoc]
  refine ⟨announced earlier topic partition, announced later topic partition ++ rest, split, ?_⟩
  have all := numbered topic partition
  rw [split] at all
  exact (numbered_append.mp (numbered_append.mp all).2).1

/-- A bus of capacity 16 with nobody on it. -/
def quietBus : BroadcastEventBus (Channel.broadcast LogEvent) := ⟨⟨16, [], 0⟩, 0⟩

theorem quietBus_new : BroadcastEventBus.new (Channel.broadcast LogEvent) 16 = some quietBus := by
  have rounded : Nat.clog 2 16 = 4 := Nat.clog_pow 2 4 Nat.one_lt_two
  simp [BroadcastEventBus.new, Channel.broadcast, Channel.open?, Channel.drop, quietBus, rounded]

/-- A subscriber to the topic, two overlapping calls that store a record there, and
the events it receives. -/
theorem pair_heard {allowed : Broker memoryStore → Option Live.Owed → EngineCall → Prop}
    (free : ∀ broker owed request, (∀ event, request ≠ .publish event) → allowed broker owed request)
    (first : ∀ owed, allowed (pairBroker []) owed (.publish (plainEvent 0)))
    (second : ∀ owed, allowed (pairBroker [plainEvent 0]) owed (.publish (plainEvent 1))) :
    ∃ (scene : Scene memoryStore (Channel.broadcast LogEvent))
        (listener : Listener (Channel.broadcast LogEvent)),
      Scene.Reaches allowed quietBus (soloBroker .default 0 0 []) scene ∧
      listener ∈ scene.audience.listeners ∧ listener.subscription.topics = [soloTopic.name] ∧
      listener.received = [plainEvent 0, plainEvent 1] ∧ scene.audience.bus.laggedTotal = 0 ∧
      scene.tasks.world = pairBroker [plainEvent 0, plainEvent 1] := by
  obtain ⟨state, called, _, same⟩ := Live.pair_announced free first second
  let events := [plainEvent 0, plainEvent 1]
  let heard : BroadcastEventBus (Channel.broadcast LogEvent) := ⟨⟨16, events, 1⟩, 0⟩
  let joined : Audience (Channel.broadcast LogEvent) :=
    ⟨(quietBus.subscribe [soloTopic.name]).2, [⟨⟨(0 : Nat), [soloTopic.name]⟩, [], []⟩]⟩
  have listening : Scene.Reaches allowed quietBus (soloBroker .default 0 0 [])
      ⟨⟨soloBroker .default 0 0 [], []⟩, joined⟩ := .single (.listens (.subscribe rfl))
  obtain ⟨published, told, overheard⟩ := @Scene.overhear _ _ _ joined _ _ called
  obtain rfl : events = published := (congrArg Broker.published same).symm.trans told
  have once := (listening.trans overheard).tail (.listens (@Audience.Moves.poll _ heard heard []
    ⟨(0 : Nat), [soloTopic.name]⟩ ⟨(1 : Nat), [soloTopic.name]⟩ events [] (some (plainEvent 0)) [] rfl))
  have twice := once.tail (.listens (@Audience.Moves.poll _ heard heard []
    ⟨(1 : Nat), [soloTopic.name]⟩ ⟨(2 : Nat), [soloTopic.name]⟩ events [plainEvent 0]
    (some (plainEvent 1)) [] rfl))
  exact ⟨_, _, twice, List.mem_singleton_self _, rfl, rfl, rfl, same⟩

theorem subscribers_tail_pair :
    ∃ (scene : Scene memoryStore (Channel.broadcast LogEvent))
        (listener : Listener (Channel.broadcast LogEvent)),
      Scene.Reaches Live.InOrder quietBus (soloBroker .default 0 0 []) scene ∧
      listener ∈ scene.audience.listeners ∧
      announced listener.received soloTopic.name 0 = [plainRecord 0, plainRecord 1] ∧
      ∃ before after, recordsOn scene.tasks.world.appended soloTopic.name 0 =
        before ++ (announced listener.received soloTopic.name 0 ++ after) := by
  obtain ⟨view, shows⟩ := soloStore_shown
  obtain ⟨scene, listener, reached, member, topics, received, prompt, _⟩ :=
    pair_heard Live.InOrder.quiet Live.pair_inOrder.1 Live.pair_inOrder.2
  obtain ⟨before, after, split, _⟩ := subscribers_tail shows rfl rfl (Channel.lawful LogEvent) quietBus_new
    reached member prompt (.inr (by rw [topics]; exact List.mem_singleton_self _)) 0
  refine ⟨scene, listener, reached, member, ?_, before, after, split⟩
  rw [received]
  decide

end ConnectForge
