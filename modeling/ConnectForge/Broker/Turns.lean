import ConnectForge.Broker.Routing
import ConnectForge.Data.RoundRobin

namespace ConnectForge

open Data Interaction Infra

/-! The partitions batches without a key go to. -/

/-- A batch that took a slot of the round-robin counter. -/
def Batch.keyless (batch : Batch) : Bool := (batch.submitted.head?.bind ProduceRecord.key).isNone

def slots (batches : List Batch) : List Batch := batches.filter Batch.keyless

/-- The partitions a topic's keyless batches went to, in order. -/
def turns (batches : List Batch) (topic : TopicName) : List Nat :=
  ((slots batches).filter fun batch => batch.topic = topic).map Batch.partition

/-- The number of slots other topics took since this one last did. -/
def sinceLast (batches : List Batch) (topic : TopicName) : Nat :=
  ((slots batches).reverse.takeWhile fun batch => batch.topic ≠ topic).length

section Lists

variable (batches : List Batch) {batch : Batch}

theorem slots_keyed (keyed : batch.keyless = false) : slots (batches ++ [batch]) = slots batches := by
  rw [slots, List.filter_append, List.filter_cons_of_neg (by simp [keyed])]
  exact List.append_nil _

theorem slots_keyless (keyless : batch.keyless = true) :
    slots (batches ++ [batch]) = slots batches ++ [batch] := by
  rw [slots, List.filter_append, List.filter_cons_of_pos keyless]
  rfl

theorem turns_keyless (keyless : batch.keyless = true) (topic : TopicName) :
    turns (batches ++ [batch]) topic =
      turns batches topic ++ if batch.topic = topic then [batch.partition] else [] := by
  rw [turns, slots_keyless batches keyless, List.filter_append, List.map_append]
  by_cases same : batch.topic = topic <;> simp [same, turns]

theorem sinceLast_keyless (keyless : batch.keyless = true) (topic : TopicName) :
    sinceLast (batches ++ [batch]) topic =
      if batch.topic = topic then 0 else sinceLast batches topic + 1 := by
  rw [sinceLast, slots_keyless batches keyless, List.reverse_append, List.reverse_singleton,
    List.singleton_append, List.takeWhile_cons]
  by_cases same : batch.topic = topic <;> simp [same, sinceLast]

theorem length_slots : (slots batches).length ≤ batches.length := List.length_filter_le _ _

theorem turns_eq_nil {topic : TopicName} (absent : ∀ batch ∈ batches, batch.topic ≠ topic) :
    turns batches topic = [] := by
  rw [turns, List.map_eq_nil_iff, List.filter_eq_nil_iff]
  intro batch member
  simpa using absent batch (List.mem_filter.mp member).1

end Lists

variable {model : LogStoreModel} {broker after : Broker model} {view : StoreView} {topic : TopicName}
  {batch : List ProduceRecord}

/-- Other topics took whole rounds of slots since a topic last took one. -/
def Broker.Spaced (broker : Broker model) (topic : TopicName) (batch : List ProduceRecord) : Prop :=
  batch.head?.bind ProduceRecord.key = none → ∀ count, model.partitionCount broker.store topic = some count →
    turns broker.appended topic ≠ [] → sinceLast broker.appended topic % count = 0

/-- A topic's keyless batches went round its partitions, and the counter is as
far ahead of them as other topics have moved it. -/
def GoesRound (batches : List Batch) (topic : TopicName) (count : Nat) : Prop :=
  ∃ first, turns batches topic = dealt count first (turns batches topic).length ∧
    (turns batches topic ≠ [] → (slots batches).length % count =
      (first + (turns batches topic).length + sinceLast batches topic) % count)

theorem GoesRound.keyless {batches : List Batch} {count : Nat} (round : GoesRound batches topic count)
    {next : Batch} (keyless : next.keyless = true)
    (spaced : next.topic = topic → turns batches topic ≠ [] → sinceLast batches topic % count = 0)
    (placed : next.topic = topic → next.partition = (slots batches).length % count) :
    GoesRound (batches ++ [next]) topic count := by
  obtain ⟨first, dealtSoFar, ahead⟩ := round
  have turnsNow := turns_keyless batches keyless topic
  have since := sinceLast_keyless batches keyless topic
  have total : (slots (batches ++ [next])).length = (slots batches).length + 1 := by
    rw [slots_keyless batches keyless, List.length_append, List.length_singleton]
  by_cases same : next.topic = topic
  · rw [if_pos same] at turnsNow since
    rw [placed same] at turnsNow
    by_cases none : turns batches topic = []
    · -- Wherever the counter stands, the first turn starts the round.
      rw [none, List.nil_append] at turnsNow
      refine ⟨(slots batches).length, ?_, ?_⟩
      · rw [turnsNow]
        rfl
      · intro _
        rw [turnsNow, since, total]
        rfl
    · have aligned : (slots batches).length % count = (first + (turns batches topic).length) % count := by
        rw [ahead none, Nat.add_mod, spaced same none, Nat.add_zero, Nat.mod_mod]
      refine ⟨first, ?_, ?_⟩
      · rw [turnsNow, List.length_append, List.length_singleton, dealt_succ, ← dealtSoFar, aligned]
      · intro _
        rw [turnsNow, since, total, List.length_append, List.length_singleton, Nat.add_zero,
          ← Nat.add_assoc, Nat.add_mod, aligned, ← Nat.add_mod]
  · rw [if_neg same] at turnsNow since
    rw [List.append_nil] at turnsNow
    refine ⟨first, ?_, ?_⟩
    · rw [turnsNow]
      exact dealtSoFar
    · intro some
      rw [turnsNow] at some
      rw [turnsNow, since, total, ← Nat.add_assoc, Nat.add_mod, ahead some, ← Nat.add_mod]

theorem GoesRound.keyed {batches : List Batch} {count : Nat} (round : GoesRound batches topic count)
    {next : Batch} (keyed : next.keyless = false) : GoesRound (batches ++ [next]) topic count := by
  unfold GoesRound turns sinceLast at round ⊢
  rw [slots_keyed batches keyed]
  exact round

structure InTurn (broker : Broker model) (view : StoreView) : Prop where
  shows : model.Shows broker.store view
  counter : broker.roundRobin = (slots broker.appended).length
  known : ∀ batch ∈ broker.appended, ∃ count, view.count? batch.topic = some count
  round : ∀ topic count, view.count? topic = some count → GoesRound broker.appended topic count

theorem InTurn.new (model : LogStoreModel) : InTurn (.new model) .empty where
  shows := model.fresh
  counter := rfl
  known := nofun
  round _ _ found := by cases found

theorem InTurn.extend (inTurn : InTurn broker view) {later : StoreView}
    (wider : Broker.Extends view later) (shows : model.Shows after.store later)
    (slot : after.roundRobin = broker.roundRobin) (same : after.appended = broker.appended) :
    InTurn after later where
  shows := shows
  counter := by rw [slot, same, inTurn.counter]
  known := by
    intro batch member
    obtain ⟨count, found⟩ := inTurn.known batch (same ▸ member)
    exact ⟨count, wider.counts _ _ found⟩
  round := by
    intro topic count found
    rw [same]
    cases old : view.count? topic with
    | some _ =>
        rw [wider.counts topic _ old] at found
        cases found
        exact inTurn.round topic _ old
    | none =>
        -- A topic that was just created has not had a turn.
        have none : turns broker.appended topic = [] := turns_eq_nil _ fun batch member same => by
          obtain ⟨count', seen⟩ := inTurn.known batch member
          rw [same, old] at seen
          cases seen
        exact ⟨0, by rw [none]; rfl, fun some => absurd none some⟩

theorem InTurn.produce (inTurn : InTurn broker view) (spaced : broker.Spaced topic batch)
    (bounded : broker.appended.length + 1 < u64Modulus) {result : ProduceResult}
    (ended : Ends Broker.Answers (produce topic batch) broker (.ok result) after) :
    ∃ later, InTurn after later := by
  obtain ⟨_, slot, state, log, grown, outcome, lands⟩ := Broker.produce_ends inTurn.shows ended
  have found : view.count? topic = some state.config.partitions := by
    rw [StoreView.count?, lands.found]
    rfl
  have counts := StoreView.count?_update lands.found
    (state.partitions.set (broker.target batch state.config.partitions) grown)
  have fewer := length_slots broker.appended
  refine ⟨_, lands.shows, ?_, ?_, ?_⟩
  · rw [lands.appended, slot, Broker.nextSlot]
    cases key : batch.head?.bind ProduceRecord.key with
    | some key' =>
        rw [slots_keyed _ (by simp [Batch.keyless, key])]
        exact inTurn.counter
    | none =>
        rw [slots_keyless _ (by simp [Batch.keyless, key]), List.length_append, List.length_singleton]
        dsimp only
        rw [inTurn.counter, Nat.mod_eq_of_lt (by omega)]
  · intro other member
    rw [lands.appended] at member
    rw [counts]
    rcases List.mem_append.mp member with old | new
    · exact inTurn.known other old
    · cases List.mem_singleton.mp new
      exact ⟨_, found⟩
  · intro other count seen
    rw [counts] at seen
    have round := inTurn.round other count seen
    rw [lands.appended]
    cases key : batch.head?.bind ProduceRecord.key with
    | some key' => exact round.keyed (by simp [Batch.keyless, key])
    | none =>
        refine round.keyless (by simp [Batch.keyless, key]) ?_ ?_
        · rintro rfl
          exact spaced key count ((model.count inTurn.shows).trans seen)
        · rintro rfl
          rw [found] at seen
          cases seen
          simp only [Broker.target, key, inTurn.counter]

theorem Produced.inTurn {engine : LogConfig} (run : Produced model engine Broker.Spaced broker)
    (bounded : broker.appended.length < u64Modulus) : ∃ view, InTurn broker view := by
  induction run with
  | opened => exact ⟨.empty, .new model⟩
  | created earlier ended ih =>
      obtain ⟨shown, shows⟩ := earlier.shown
      rw [(Broker.createTopic_ends shows ended).2.1] at bounded
      obtain ⟨view, inTurn⟩ := ih bounded
      obtain ⟨slot, same, later, shows', wider⟩ := Broker.createTopic_ends inTurn.shows ended
      exact ⟨later, inTurn.extend wider shows' slot same⟩
  | produced earlier spaced ended ih =>
      obtain ⟨shown, shows⟩ := earlier.shown
      obtain ⟨_, _, _, _, _, _, lands⟩ := Broker.produce_ends shows ended
      rw [lands.appended, List.length_append, List.length_singleton] at bounded
      obtain ⟨view, inTurn⟩ := ih (by omega)
      exact inTurn.produce spaced bounded ended

def keylessOn (batches : List Batch) (topic : TopicName) (partition : Nat) : List Batch :=
  batches.filter fun batch => batch.keyless ∧ batch.topic = topic ∧ batch.partition = partition

theorem length_keylessOn (batches : List Batch) (topic : TopicName) (partition : Nat) :
    (keylessOn batches topic partition).length = (turns batches topic).count partition := by
  rw [turns, slots, List.filter_filter, List.count, List.countP_map, List.countP_filter, keylessOn,
    ← List.countP_eq_length_filter]
  apply List.countP_congr
  intro batch _
  simp only [Function.comp_apply, Bool.and_eq_true, decide_eq_true_eq, beq_iff_eq]
  tauto

/-- While other topics take whole rounds of slots between two keyless batches of
a topic, no partition of it is more than one keyless batch ahead of another. -/
theorem keyless_spread {engine : LogConfig} (run : Produced model engine Broker.Spaced broker)
    (bounded : broker.appended.length < u64Modulus) {count left right : Nat}
    (counted : model.partitionCount broker.store topic = some count) (leftInside : left < count)
    (rightInside : right < count) :
    (keylessOn broker.appended topic left).length ≤
      (keylessOn broker.appended topic right).length + 1 := by
  obtain ⟨view, inTurn⟩ := run.inTurn bounded
  rw [model.count inTurn.shows] at counted
  obtain ⟨first, inOrder, _⟩ := inTurn.round topic count counted
  rw [length_keylessOn, length_keylessOn, inOrder]
  exact dealt_evenly leftInside rightInside first _

/-- A second topic beside `pairTopic`, with one partition. -/
def soloTopic : TopicConfig where
  name := ⟨"orders", by decide⟩
  partitions := 1
  retention := { segmentMaxRecords := 9, maxRecords := 0 }

def pairedSolo (first second solo : Partition) (produced : Nat) : MemoryLogStore :=
  { paired first second produced with
    topics := (paired first second produced).topics.insert soloTopic.name.asStr
      { config := soloTopic, partitions := [solo] } }

theorem Produced.plain {met : Broker memoryStore → TopicName → List ProduceRecord → Prop}
    {broker : Broker memoryStore} (run : Produced memoryStore smallEngine met broker)
    {store : MemoryLogStore} (here : broker.store = store) {slot : Nat} (next : broker.roundRobin = slot)
    (after : MemoryLogStore) (topic : TopicName) (count offset : Nat)
    (holds : met broker topic plainBatch)
    (counts : memoryStore.answers (.partitionCount topic) store (.ok (some count)) store)
    (appends : memoryStore.answers (.append topic (slot % count) plainBatch .epoch) store
      (.ok ⟨[plainRecord offset], none⟩) after) :
    ∃ later, Produced memoryStore smallEngine met later ∧ later.store = after ∧
      later.roundRobin = (slot + 1) % u64Modulus ∧
      later.appended = broker.appended ++ [⟨topic, slot % count, plainBatch, [plainRecord offset]⟩] := by
  subst here next
  have target : broker.target plainBatch count = broker.roundRobin % count := rfl
  rw [← target] at appends ⊢
  obtain ⟨later, ended, there, moved, grown⟩ := Broker.produce_runs (by decide) rfl counts appends
  exact ⟨later, run.produced holds ended, there, moved, grown⟩

/-- Both topics were just created. -/
theorem Produced.begins_two (met : Broker memoryStore → TopicName → List ProduceRecord → Prop) :
    ∃ broker, Produced memoryStore smallEngine met broker ∧
      broker.store = pairedSolo .default .default .default 0 ∧ broker.roundRobin = 0 ∧
      broker.appended = [] := by
  obtain ⟨before, run, store, slot, appended⟩ := Produced.begins met
  have lists : memoryStore.answers .topics before.store (.ok [pairTopic])
      (paired .default .default 0) := by
    rw [store]
    rfl
  obtain ⟨broker, ended, store, slot', appended'⟩ := @Broker.createTopic_runs memoryStore before
    (pairedSolo .default .default .default 0) _ smallEngine soloTopic _ rfl (by decide) lists (by decide)
    rfl
  exact ⟨broker, run.created ended, store, slot'.trans slot, appended'.trans appended⟩

/-- A keyless batch for either topic between two of the other: both batches of
the first topic go to the same one of its two partitions. -/
theorem keyless_uneven :
    ∃ broker : Broker memoryStore, Produced memoryStore smallEngine (fun _ _ _ => True) broker ∧
      broker.appended.length < u64Modulus ∧
      memoryStore.partitionCount broker.store pairTopic.name = some 2 ∧
      ¬ (keylessOn broker.appended pairTopic.name 0).length ≤
        (keylessOn broker.appended pairTopic.name 1).length + 1 := by
  obtain ⟨_, run, store, slot, unused⟩ := Produced.begins_two fun _ _ _ => True
  -- A batch to the first topic, one to the other, and one to the first again.
  obtain ⟨_, run, store, slot, appended⟩ := run.plain store slot
    (pairedSolo ⟨[plainRecord 0], 0, 1, 1, 1⟩ .default .default 1) pairTopic.name 2 0 trivial rfl rfl
  obtain ⟨_, run, store, slot, grown⟩ := run.plain store slot
    (pairedSolo ⟨[plainRecord 0], 0, 1, 1, 1⟩ .default ⟨[plainRecord 0], 0, 1, 1, 1⟩ 2) soloTopic.name 1 0
    trivial rfl rfl
  obtain ⟨last, run, store, slot, final⟩ := run.plain store slot
    (pairedSolo ⟨[plainRecord 0, plainRecord 1], 0, 2, 2, 1⟩ .default ⟨[plainRecord 0], 0, 1, 1, 1⟩ 3)
    pairTopic.name 2 1 trivial rfl rfl
  rw [unused, List.nil_append] at appended
  rw [grown, appended] at final
  refine ⟨last, run, ?_, ?_, ?_⟩
  · rw [final]
    decide
  · rw [store]
    rfl
  · rw [final]
    decide

/-- Two keyless batches for the one topic between two of the other, which has two
partitions. -/
theorem keyless_spread_between :
    ∃ broker : Broker memoryStore, Produced memoryStore smallEngine Broker.Spaced broker ∧
      broker.appended.map (fun batch => (batch.topic, batch.partition)) =
        [(pairTopic.name, 0), (soloTopic.name, 0), (soloTopic.name, 0), (pairTopic.name, 1)] ∧
      (keylessOn broker.appended pairTopic.name 0).length ≤
        (keylessOn broker.appended pairTopic.name 1).length + 1 := by
  obtain ⟨_, run, store, slot, unused⟩ := Produced.begins_two Broker.Spaced
  obtain ⟨_, run, store, slot, first⟩ := run.plain store slot
    (pairedSolo ⟨[plainRecord 0], 0, 1, 1, 1⟩ .default .default 1) pairTopic.name 2 0
    (by intro _ _ _ taken; rw [unused] at taken; exact absurd rfl taken) rfl rfl
  rw [unused, List.nil_append] at first
  obtain ⟨_, run, store, slot, second⟩ := run.plain store slot
    (pairedSolo ⟨[plainRecord 0], 0, 1, 1, 1⟩ .default ⟨[plainRecord 0], 0, 1, 1, 1⟩ 2) soloTopic.name 1 0
    (by intro _ _ _ taken; rw [first] at taken; exact absurd rfl taken) rfl rfl
  rw [first] at second
  obtain ⟨before, run, store, slot, third⟩ := run.plain store slot
    (pairedSolo ⟨[plainRecord 0], 0, 1, 1, 1⟩ .default ⟨[plainRecord 0, plainRecord 1], 0, 2, 1, 2⟩ 3)
    soloTopic.name 1 1 (by intro _ count _ _; rw [second]; exact Nat.zero_mod count) rfl rfl
  rw [second] at third
  have spaced : before.Spaced pairTopic.name plainBatch := by
    intro _ count counted _
    rw [store] at counted
    cases counted
    rw [third]
    decide
  obtain ⟨last, run, store, slot, fourth⟩ := run.plain store slot
    (pairedSolo ⟨[plainRecord 0], 0, 1, 1, 1⟩ ⟨[plainRecord 0], 0, 1, 1, 1⟩
      ⟨[plainRecord 0, plainRecord 1], 0, 2, 1, 2⟩ 4) pairTopic.name 2 0 spaced rfl rfl
  rw [third] at fourth
  have counted : memoryStore.partitionCount last.store pairTopic.name = some 2 := by
    rw [store]
    rfl
  have bounded : last.appended.length < u64Modulus := by
    rw [fourth]
    decide
  refine ⟨last, run, ?_, keyless_spread run bounded counted (by decide) (by decide)⟩
  rw [fourth]
  rfl

end ConnectForge
