import ConnectForge.Core.Engine
import ConnectForge.Core.PartitionLog
import ConnectForge.Data.Broadcast

namespace ConnectForge.Infra

open Data

/-! The event bus, over the operations of a broadcast channel. -/

structure BroadcastEventBus (ops : Broadcast LogEvent) where
  sender : ops.Sender
  /-- `connectforge_subscriber_lagged_total`. -/
  laggedTotal : Nat

structure Subscription (ops : Broadcast LogEvent) where
  receiver : ops.Receiver
  topics : List TopicName

/-- The test in `subscribe`: no topics means every topic. -/
def accepts (topics : List TopicName) (event : LogEvent) : Bool :=
  topics.isEmpty || topics.any fun topic => decide (topic = event.topic)

namespace BroadcastEventBus

variable {ops : Broadcast LogEvent}

/-- The receiver that comes with the channel is dropped.  None is the channel's
panic. -/
def new (ops : Broadcast LogEvent) (capacity : Nat) : Option (BroadcastEventBus ops) :=
  (ops.channel (Nat.max capacity 1)).map fun (sender, receiver) =>
    { sender := ops.drop sender receiver, laggedTotal := 0 }

/-- A send that reaches nobody is no failure. -/
def publish (bus : BroadcastEventBus ops) (event : LogEvent) :
    Except PortError Unit × BroadcastEventBus ops :=
  (.ok (), { bus with sender := (ops.send bus.sender event).2 })

def subscribe (bus : BroadcastEventBus ops) (topics : List TopicName) :
    Except PortError (Subscription ops) × BroadcastEventBus ops :=
  match ops.subscribe bus.sender with
  | (receiver, sender) => (.ok { receiver, topics }, { bus with sender })

/-- One item of the channel's stream, through the filter. -/
def poll (bus : BroadcastEventBus ops) (subscription : Subscription ops) :
    Option LogEvent × Subscription ops × BroadcastEventBus ops :=
  match ops.recv bus.sender subscription.receiver with
  | (.value event, receiver, sender) =>
      (if accepts subscription.topics event then some event else none, { subscription with receiver },
        { bus with sender })
  | (.lagged _, receiver, sender) =>
      (none, { subscription with receiver }, { bus with sender, laggedTotal := bus.laggedTotal + 1 })
  | (.empty, receiver, sender) => (none, { subscription with receiver }, { bus with sender })

/-- A subscriber drops its stream. -/
def unsubscribe (bus : BroadcastEventBus ops) (subscription : Subscription ops) : BroadcastEventBus ops :=
  { bus with sender := ops.drop bus.sender subscription.receiver }

end BroadcastEventBus

variable {ops : Broadcast LogEvent}

/-- A subscriber, with every event published since it subscribed and what its
stream has given it. -/
structure Listener (ops : Broadcast LogEvent) where
  subscription : Subscription ops
  published : List LogEvent
  received : List LogEvent

namespace Listener

def hear (listener : Listener ops) (event : LogEvent) : Listener ops :=
  { listener with published := listener.published ++ [event] }

/-- The events on the topics it asked for. -/
def wanted (listener : Listener ops) (events : List LogEvent) : List LogEvent :=
  events.filter (accepts listener.subscription.topics)

/-- Its receiver finds nothing more. -/
def CaughtUp (listener : Listener ops) (bus : BroadcastEventBus ops) : Prop :=
  (ops.recv bus.sender listener.subscription.receiver).1 = .empty

end Listener

structure Audience (ops : Broadcast LogEvent) where
  bus : BroadcastEventBus ops
  listeners : List (Listener ops)

namespace Audience

def publish (audience : Audience ops) (event : LogEvent) : Audience ops where
  bus := (audience.bus.publish event).2
  listeners := audience.listeners.map (Listener.hear · event)

/-- What the subscribers do, each on its own. -/
inductive Moves : Audience ops → Audience ops → Prop where
  | subscribe {bus after listeners topics subscription}
      (answered : bus.subscribe topics = (.ok subscription, after)) :
      Moves ⟨bus, listeners⟩ ⟨after, ⟨subscription, [], []⟩ :: listeners⟩
  | poll {bus after before subscription later published received item rest}
      (answered : bus.poll subscription = (item, later, after)) :
      Moves ⟨bus, before ++ ⟨subscription, published, received⟩ :: rest⟩
        ⟨after, before ++ ⟨later, published, received ++ item.toList⟩ :: rest⟩
  | unsubscribe {bus before listener rest} :
      Moves ⟨bus, before ++ listener :: rest⟩ ⟨bus.unsubscribe listener.subscription, before ++ rest⟩

inductive Step (audience : Audience ops) : Audience ops → Prop where
  | publish (event : LogEvent) : Step audience (audience.publish event)
  | moves {after} (moves : Moves audience after) : Step audience after

def Reaches (bus : BroadcastEventBus ops) (audience : Audience ops) : Prop :=
  Relation.ReflTransGen Step ⟨bus, []⟩ audience

/-- A listener, with what the channel has for it and what its receiver was given. -/
structure Hearer (ops : Broadcast LogEvent) where
  listener : Listener ops
  pending : List LogEvent
  follower : Follower LogEvent

def Hearer.waiting (hearer : Hearer ops) : ops.Receiver × List LogEvent :=
  (hearer.listener.subscription.receiver, hearer.pending)

/-- The listener has what its receiver was given, through the filter; a lag is
counted. -/
structure Hearer.Hears (size laggedTotal : Nat) (hearer : Hearer ops) : Prop where
  faithful : hearer.follower.Faithful size hearer.pending
  published : hearer.listener.published = hearer.follower.sent
  received : hearer.listener.received =
    hearer.follower.taken.filter (accepts hearer.listener.subscription.topics)
  missed : laggedTotal = 0 → hearer.follower.missed = 0

/-- The receivers of the channel are those of the listeners. -/
def Sound (Keeps : Nat → ops.Sender → List (ops.Receiver × List LogEvent) → Prop) (size : Nat)
    (audience : Audience ops) : Prop :=
  ∃ hearers : List (Hearer ops), audience.listeners = hearers.map Hearer.listener ∧
    Keeps size audience.bus.sender (hearers.map Hearer.waiting) ∧
    ∀ hearer ∈ hearers, hearer.Hears size audience.bus.laggedTotal

variable {Keeps : Nat → ops.Sender → List (ops.Receiver × List LogEvent) → Prop}
  {size laggedTotal later : Nat} {hearer : Hearer ops} {audience after : Audience ops}

def Hearer.hear (hearer : Hearer ops) (event : LogEvent) : Hearer ops where
  listener := hearer.listener.hear event
  pending := hearer.pending ++ [event]
  follower := hearer.follower.send event

theorem Hearer.Hears.hear (hears : hearer.Hears size laggedTotal) (event : LogEvent) :
    (hearer.hear event).Hears size laggedTotal where
  faithful := hears.faithful.send event
  published := congrArg (· ++ [event]) hears.published
  received := hears.received
  missed := hears.missed

theorem Hearer.Hears.mono (hears : hearer.Hears size laggedTotal)
    (counted : later = 0 → laggedTotal = 0) : hearer.Hears size later :=
  { hears with missed := fun none => hears.missed (counted none) }

theorem Hearer.Hears.joins (receiver : ops.Receiver) (topics : List TopicName) :
    Hearer.Hears size laggedTotal ⟨⟨⟨receiver, topics⟩, [], []⟩, [], Follower.join⟩ where
  faithful := .join
  published := rfl
  received := rfl
  missed _ := rfl

/-- What a poll does to a listener, and that the others are only told of a lag. -/
theorem Hearer.Hears.poll {bus next : BroadcastEventBus ops} {onwards : Subscription ops}
    {item : Option LogEvent} (hears : hearer.Hears size bus.laggedTotal)
    (answered : bus.poll hearer.listener.subscription = (item, onwards, next))
    (told : (ops.recv bus.sender hearer.listener.subscription.receiver).1 =
      (deliver size hearer.pending).1) :
    next.sender = (ops.recv bus.sender hearer.listener.subscription.receiver).2.2 ∧
      onwards.receiver = (ops.recv bus.sender hearer.listener.subscription.receiver).2.1 ∧
      (next.laggedTotal = 0 → bus.laggedTotal = 0) ∧
      Hearer.Hears size next.laggedTotal
        ⟨⟨onwards, hearer.listener.published, hearer.listener.received ++ item.toList⟩,
          (deliver size hearer.pending).2, hearer.follower.take (deliver size hearer.pending).1⟩ := by
  obtain ⟨faithful, published, received, missed⟩ := hears
  have moved := faithful.recv
  unfold BroadcastEventBus.poll at answered
  cases given : ops.recv bus.sender hearer.listener.subscription.receiver with
  | mk outcome place =>
      rw [given] at answered told
      rw [← told] at moved ⊢
      cases outcome with
      | value event =>
          cases answered
          refine ⟨rfl, rfl, id, moved, published, ?_, missed⟩
          simp only [Follower.take, List.filter_append, received, List.filter_singleton]
          split <;> simp_all
      | lagged count =>
          cases answered
          refine ⟨rfl, rfl, fun none => absurd none (Nat.succ_ne_zero _), moved, published, ?_, ?_⟩
          · simp [Follower.take, received]
          · exact fun none => absurd none (Nat.succ_ne_zero _)
      | empty =>
          cases answered
          refine ⟨rfl, rfl, id, moved, published, ?_, missed⟩
          simp [Follower.take, received]

theorem Sound.publish (lawful : ops.Lawful Keeps) (sound : Sound Keeps size audience)
    (event : LogEvent) : Sound Keeps size (audience.publish event) := by
  obtain ⟨hearers, listeners, keeps, hears⟩ := sound
  refine ⟨hearers.map (Hearer.hear · event), ?_, ?_, ?_⟩
  · simp only [Audience.publish, listeners, List.map_map]
    rfl
  · have sent := lawful.send keeps (rfl : ops.send audience.bus.sender event = _)
    rw [List.map_map] at sent ⊢
    exact sent
  · intro hearer member
    obtain ⟨earlier, known, rfl⟩ := List.mem_map.mp member
    exact (hears earlier known).hear event

theorem Sound.subscribe {bus after : BroadcastEventBus ops} {listeners : List (Listener ops)}
    {topics : List TopicName} {subscription : Subscription ops} (lawful : ops.Lawful Keeps)
    (sound : Sound Keeps size ⟨bus, listeners⟩)
    (answered : bus.subscribe topics = (.ok subscription, after)) :
    Sound Keeps size ⟨after, ⟨subscription, [], []⟩ :: listeners⟩ := by
  obtain ⟨hearers, rfl, keeps, hears⟩ := sound
  cases answered
  refine ⟨⟨⟨⟨(ops.subscribe bus.sender).1, topics⟩, [], []⟩, [], Follower.join⟩ :: hearers, rfl, ?_, ?_⟩
  · exact lawful.subscribe keeps rfl
  · rw [List.forall_mem_cons]
    exact ⟨.joins _ topics, hears⟩

/-- The hearer behind one of the listeners, between those behind the others. -/
theorem Sound.split {bus : BroadcastEventBus ops} {before rest : List (Listener ops)}
    {listener : Listener ops} (sound : Sound Keeps size ⟨bus, before ++ listener :: rest⟩) :
    ∃ (front : List (Hearer ops)) (hearer : Hearer ops) (behind : List (Hearer ops)),
      before = front.map Hearer.listener ∧ listener = hearer.listener ∧
      rest = behind.map Hearer.listener ∧
      Keeps size bus.sender (front.map Hearer.waiting ++ hearer.waiting :: behind.map Hearer.waiting) ∧
      (∀ other ∈ front, other.Hears size bus.laggedTotal) ∧ hearer.Hears size bus.laggedTotal ∧
      ∀ other ∈ behind, other.Hears size bus.laggedTotal := by
  obtain ⟨hearers, listeners, keeps, hears⟩ := sound
  obtain ⟨front, back, rfl, rfl, middle⟩ := List.map_eq_append_iff.mp listeners.symm
  obtain ⟨hearer, behind, rfl, rfl, rfl⟩ := List.map_eq_cons_iff.mp middle
  rw [List.map_append, List.map_cons] at keeps
  rw [List.forall_mem_append, List.forall_mem_cons] at hears
  exact ⟨front, hearer, behind, rfl, rfl, rfl, keeps, hears⟩

theorem Sound.poll {bus after : BroadcastEventBus ops} {before rest : List (Listener ops)}
    {listener : Listener ops} {item : Option LogEvent} {onwards : Subscription ops}
    (lawful : ops.Lawful Keeps) (sound : Sound Keeps size ⟨bus, before ++ listener :: rest⟩)
    (answered : bus.poll listener.subscription = (item, onwards, after)) :
    Sound Keeps size
      ⟨after, before ++ ⟨onwards, listener.published, listener.received ++ item.toList⟩ :: rest⟩ := by
  obtain ⟨front, hearer, behind, rfl, rfl, rfl, keeps, ahead, here, last⟩ := sound.split
  obtain ⟨told, left⟩ := lawful.recv keeps rfl
  obtain ⟨sender, receiver, counted, polled⟩ := here.poll answered told
  refine ⟨front ++ ⟨⟨onwards, hearer.listener.published, hearer.listener.received ++ item.toList⟩,
    (deliver size hearer.pending).2, hearer.follower.take (deliver size hearer.pending).1⟩ :: behind,
    ?_, ?_, ?_⟩
  · rw [List.map_append, List.map_cons]
  · rw [List.map_append, List.map_cons, Hearer.waiting, sender, receiver]
    exact left
  · rw [List.forall_mem_append, List.forall_mem_cons]
    exact ⟨fun other member => (ahead other member).mono counted, polled,
      fun other member => (last other member).mono counted⟩

theorem Sound.unsubscribe {bus : BroadcastEventBus ops} {before rest : List (Listener ops)}
    {listener : Listener ops} (lawful : ops.Lawful Keeps)
    (sound : Sound Keeps size ⟨bus, before ++ listener :: rest⟩) :
    Sound Keeps size ⟨bus.unsubscribe listener.subscription, before ++ rest⟩ := by
  obtain ⟨front, hearer, behind, rfl, rfl, rfl, keeps, ahead, _, last⟩ := sound.split
  refine ⟨front ++ behind, ?_, ?_, ?_⟩
  · rw [List.map_append]
  · rw [List.map_append]
    exact lawful.drop keeps
  · rw [List.forall_mem_append]
    exact ⟨ahead, last⟩

theorem Sound.moves (lawful : ops.Lawful Keeps) (sound : Sound Keeps size audience)
    (moves : Moves audience after) : Sound Keeps size after := by
  cases moves with
  | subscribe answered => exact sound.subscribe lawful answered
  | poll answered => exact sound.poll lawful answered
  | unsubscribe => exact sound.unsubscribe lawful

/-- A new bus keeps at least as many events as it was asked to. -/
theorem Sound.opened (lawful : ops.Lawful Keeps) {capacity : Nat} {bus : BroadcastEventBus ops}
    (made : BroadcastEventBus.new ops capacity = some bus) :
    ∃ size, capacity ≤ size ∧ Sound Keeps size ⟨bus, []⟩ := by
  obtain ⟨⟨sender, receiver⟩, opened, rfl⟩ := Option.map_eq_some_iff.mp made
  obtain ⟨size, enough, keeps⟩ := lawful.channel opened
  refine ⟨size, (Nat.le_max_left capacity 1).trans enough, [], rfl, ?_, by simp⟩
  exact lawful.drop (show Keeps size sender ([] ++ (receiver, []) :: []) from keeps)

theorem Reaches.sound (lawful : ops.Lawful Keeps) {bus : BroadcastEventBus ops}
    (fresh : Sound Keeps size ⟨bus, []⟩) (reached : Reaches bus audience) :
    Sound Keeps size audience := by
  induction reached with
  | refl => exact fresh
  | tail _ step ih =>
      cases step with
      | publish event => exact ih.publish lawful event
      | moves moves => exact ih.moves lawful moves

end Audience

section Deliveries

variable {Keeps : Nat → ops.Sender → List (ops.Receiver × List LogEvent) → Prop}
  (lawful : ops.Lawful Keeps) {capacity : Nat} {bus : BroadcastEventBus ops}
  (made : BroadcastEventBus.new ops capacity = some bus) {audience : Audience ops}
  (reached : Audience.Reaches bus audience) {listener : Listener ops}
  (member : listener ∈ audience.listeners)

include lawful made reached member

/-- Every listener has a receiver that the channel keeps values for. -/
theorem bus_follows :
    ∃ size pending, ∃ follower : Follower LogEvent, capacity ≤ size ∧ follower.Faithful size pending ∧
      (ops.recv audience.bus.sender listener.subscription.receiver).1 = (deliver size pending).1 ∧
      listener.published = follower.sent ∧
      listener.received = listener.wanted follower.taken ∧
      (audience.bus.laggedTotal = 0 → follower.missed = 0) := by
  obtain ⟨size, enough, fresh⟩ := Audience.Sound.opened lawful made
  obtain ⟨hearers, listeners, keeps, hears⟩ := reached.sound lawful fresh
  rw [listeners] at member
  obtain ⟨hearer, known, rfl⟩ := List.mem_map.mp member
  obtain ⟨front, behind, rfl⟩ := List.append_of_mem known
  rw [List.map_append, List.map_cons] at keeps
  obtain ⟨faithful, published, received, missed⟩ := hears hearer known
  exact ⟨size, hearer.pending, hearer.follower, enough, faithful, (lawful.recv keeps rfl).1, published,
    received, missed⟩

/-- What a subscriber has received, as long as nobody lagged and in any case. -/
theorem bus_hears :
    (audience.bus.laggedTotal = 0 → listener.received <+:
        listener.wanted listener.published) ∧
      listener.received.Sublist (listener.wanted listener.published) := by
  obtain ⟨size, pending, follower, _, faithful, _, published, received, missed⟩ :=
    bus_follows lawful made reached member
  rw [received, published]
  refine ⟨?_, faithful.sublist.filter _⟩
  intro none
  rw [faithful.whole (missed none)]
  exact (List.prefix_append _ _).filter _

/-- However publishing, subscribing, polling and leaving interleave, a subscriber
gets the events on its topics published since it came, in order and none twice.
It misses none as long as nobody lagged.  Once its receiver finds nothing more, it
has those of the latest events that are on its topics, as many events as the bus
was asked to keep. -/
theorem bus_delivers :
    listener.received.Sublist (listener.wanted listener.published) ∧
      (audience.bus.laggedTotal = 0 → listener.received <+: listener.wanted listener.published) ∧
      (listener.CaughtUp audience.bus →
        listener.wanted (listener.published.drop (listener.published.length - capacity)) <:+
          listener.received) ∧
      (listener.CaughtUp audience.bus → audience.bus.laggedTotal = 0 →
        listener.received = listener.wanted listener.published) := by
  obtain ⟨prompt, ordered⟩ := bus_hears lawful made reached member
  obtain ⟨size, pending, follower, enough, faithful, told, published, received, missed⟩ :=
    bus_follows lawful made reached member
  refine ⟨ordered, prompt, ?_, ?_⟩
  · intro caught
    obtain rfl := deliver_empty (told.symm.trans caught)
    rw [received, published]
    apply List.IsSuffix.filter
    refine List.IsSuffix.trans (Follower.drop_suffix_drop ?_) faithful.latest
    omega
  · intro caught none
    obtain rfl := deliver_empty (told.symm.trans caught)
    rw [received, published, faithful.whole (missed none), List.append_nil]

end Deliveries

def eventsName : TopicName := ⟨"events", valid_events⟩

/-- A subscriber to a bus of capacity one that is two events behind: it loses the
first and gets the second. -/
theorem bus_delivers_lagging :
    ∃ (bus : BroadcastEventBus (Channel.broadcast LogEvent)) (audience : Audience (Channel.broadcast LogEvent))
        (listener : Listener (Channel.broadcast LogEvent)),
      BroadcastEventBus.new (Channel.broadcast LogEvent) 1 = some bus ∧
      Audience.Reaches bus audience ∧ listener ∈ audience.listeners ∧
      audience.bus.laggedTotal = 1 ∧
      listener.published = [.topicCreated eventsName 1, .recordsTruncated eventsName 0 5] ∧
      listener.received = [.recordsTruncated eventsName 0 5] ∧
      listener.wanted (listener.published.drop 1) <:+ listener.received := by
  let first := LogEvent.topicCreated eventsName 1
  let second := LogEvent.recordsTruncated eventsName 0 5
  let bus : BroadcastEventBus (Channel.broadcast LogEvent) := ⟨⟨1, [], 0⟩, 0⟩
  let told : BroadcastEventBus (Channel.broadcast LogEvent) := ⟨⟨1, [first, second], 1⟩, 0⟩
  have run : Audience.Reaches bus
      ⟨{ told with laggedTotal := 1 }, [⟨⟨(2 : Nat), [eventsName]⟩, [first, second], [second]⟩]⟩ := by
    have joined : Audience.Reaches bus
        ⟨(bus.subscribe [eventsName]).2, [⟨⟨(0 : Nat), [eventsName]⟩, [], []⟩]⟩ :=
      .single (.moves (.subscribe rfl))
    have published := (joined.tail (.publish first)).tail (.publish second)
    have lagged := published.tail (.moves (@Audience.Moves.poll _ told { told with laggedTotal := 1 } []
      ⟨(0 : Nat), [eventsName]⟩ ⟨(1 : Nat), [eventsName]⟩ [first, second] [] none [] rfl))
    exact lagged.tail (.moves (@Audience.Moves.poll _ { told with laggedTotal := 1 }
      { told with laggedTotal := 1 } [] ⟨(1 : Nat), [eventsName]⟩ ⟨(2 : Nat), [eventsName]⟩ [first, second] []
      (some second) [] rfl))
  have made : BroadcastEventBus.new (Channel.broadcast LogEvent) 1 = some bus := by
    simp [BroadcastEventBus.new, Channel.broadcast, Channel.open?, Channel.drop, bus]
  exact ⟨_, _, _, made, run, List.mem_singleton_self _, rfl, rfl, rfl,
    (bus_delivers (Channel.lawful LogEvent) made run (List.mem_singleton_self _)).2.2.1 rfl⟩

end ConnectForge.Infra
