import ConnectForge.Broker.World
import ConnectForge.Infra.StoreRefinement

namespace ConnectForge

open Data Interaction Infra

/-! Which partition a batch goes to, over whole sequences of produce calls. -/

namespace Broker

variable {model : LogStoreModel} {broker after : Broker model} {view : StoreView}

/-- What creating topics can change of what a store shows. -/
structure Extends (view later : StoreView) : Prop where
  logs : ∀ topic partition, later.log? topic partition = view.log? topic partition ∨
    later.log? topic partition = some .empty
  counts : ∀ topic count, view.count? topic = some count → later.count? topic = some count

theorem Extends.refl (view : StoreView) : Extends view view :=
  ⟨fun _ _ => .inl rfl, fun _ _ known => known⟩

theorem Extends.create {later : StoreView} (wider : Extends view later) {config : TopicConfig}
    (absent : later.find? config.name.asStr = none) :
    Extends view (later.insert config.name.asStr
      { config, partitions := List.replicate config.partitions .empty }) := by
  refine ⟨?_, fun topic count known =>
    StoreView.count?_create absent (wider.counts topic count known) _⟩
  intro topic partition
  rcases StoreView.log?_create absent topic partition with same | empty
  · rw [same]
    exact wider.logs topic partition
  · exact .inr empty

def Administers : EngineCall → Prop
  | .store .topics => True
  | .store (.createTopic _) => True
  | .publish _ => True
  | _ => False

theorem createTopic_ends {engine : LogConfig} {name : TopicName} {partitions : Nat}
    {retention : RetentionPolicy} {result : Except CoreError Unit} (shows : model.Shows broker.store view)
    (ended : Ends Answers (engine.createTopic name partitions retention) broker result after) :
    after.roundRobin = broker.roundRobin ∧ after.appended = broker.appended ∧
      ∃ later, model.Shows after.store later ∧ Extends view later := by
  refine ended.keeps (fun reached => reached.roundRobin = broker.roundRobin ∧
      reached.appended = broker.appended ∧ ∃ later, model.Shows reached.store later ∧ Extends view later)
    (makes_createTopic Administers engine name partitions retention trivial (fun _ _ => trivial)
      fun _ => trivial) ?_ ⟨rfl, rfl, view, shows, .refl view⟩
  rintro request before answer later makes ⟨slot, appended, shown, shows, wider⟩ answered
  cases request with
  | store request =>
      obtain ⟨answered, sameSlot, grown, _⟩ := answered
      obtain ⟨next, answers, shows'⟩ := model.step shows answered
      cases request with
      | topics =>
          obtain ⟨_, rfl⟩ := answers
          change later.appended = before.appended ++ [] at grown
          rw [List.append_nil] at grown
          exact ⟨sameSlot.trans slot, grown.trans appended, next, shows', wider⟩
      | createTopic config =>
          change later.appended = before.appended ++ [] at grown
          rw [List.append_nil] at grown
          refine ⟨sameSlot.trans slot, grown.trans appended, next, shows', ?_⟩
          rcases answers with ⟨_, rfl⟩ | ⟨absent, _, rfl⟩
          · exact wider
          · exact wider.create absent
      | partitionCount topic => cases makes
      | append topic partition records timestamp => cases makes
      | fetch topic partition start max => cases makes
      | stats => cases makes
  | publish event =>
      obtain ⟨_, rfl⟩ := answered
      exact ⟨slot, appended, shown, shows, wider⟩
  | nextSlot => cases makes
  | tryAcquire count => cases makes
  | now => cases makes

end Broker

/-- The states of a broker in which topics were created and batches produced
with success, one call after the other. -/
inductive Produced (model : LogStoreModel) (engine : LogConfig)
    (met : Broker model → TopicName → List ProduceRecord → Prop) : Broker model → Prop where
  | opened : Produced model engine met (.new model)
  | created {broker after name partitions retention result} (earlier : Produced model engine met broker)
      (ended : Ends Broker.Answers (engine.createTopic name partitions retention) broker result after) :
      Produced model engine met after
  | produced {broker after topic batch result} (earlier : Produced model engine met broker)
      (holds : met broker topic batch)
      (ended : Ends Broker.Answers (produce topic batch) broker (.ok result) after) :
      Produced model engine met after

theorem Produced.shown {model : LogStoreModel} {engine : LogConfig}
    {met : Broker model → TopicName → List ProduceRecord → Prop} {broker : Broker model}
    (run : Produced model engine met broker) : ∃ view, model.Shows broker.store view := by
  induction run with
  | opened => exact ⟨.empty, model.fresh⟩
  | created _ ended ih =>
      obtain ⟨view, shows⟩ := ih
      obtain ⟨_, _, later, shows', _⟩ := Broker.createTopic_ends shows ended
      exact ⟨later, shows'⟩
  | produced _ _ ended ih =>
      obtain ⟨view, shows⟩ := ih
      obtain ⟨_, _, _, _, _, _, lands⟩ := Broker.produce_ends shows ended
      exact ⟨_, lands.shows⟩

section Keys

/-! Records with the same key. -/

def submittedTo (batches : List Batch) (topic : TopicName) : List ProduceRecord :=
  (batches.filter fun batch => batch.topic = topic).flatMap Batch.submitted

def landed (batches : List Batch) (topic : TopicName) (partition : Nat) : List ProduceRecord :=
  (batches.filter fun batch => batch.topic = topic ∧ batch.partition = partition).flatMap
    Batch.submitted

def keyedBy (key : String) (records : List ProduceRecord) : List ProduceRecord :=
  records.filter fun record => record.key = some key

theorem keyedBy_append (key : String) (first second : List ProduceRecord) :
    keyedBy key (first ++ second) = keyedBy key first ++ keyedBy key second :=
  List.filter_append first second

/-- Every keyed record of a batch is where its own key belongs. -/
def Homed (view : StoreView) (batch : Batch) : Prop :=
  ∃ count, view.count? batch.topic = some count ∧
    ∀ record ∈ batch.submitted, ∀ key, record.key = some key →
      keyedPartition key count = batch.partition

theorem landed_append (first second : List Batch) (topic : TopicName) (partition : Nat) :
    landed (first ++ second) topic partition =
      landed first topic partition ++ landed second topic partition := by
  rw [landed, List.filter_append, List.flatMap_append]
  rfl

theorem landed_singleton (batch : Batch) (topic : TopicName) (partition : Nat) :
    landed [batch] topic partition =
      if batch.topic = topic ∧ batch.partition = partition then batch.submitted else [] := by
  by_cases here : batch.topic = topic ∧ batch.partition = partition
  · simp [landed, here]
  · rw [if_neg here, landed, List.filter_cons_of_neg (by simpa using here)]
    rfl

theorem submittedTo_cons (batch : Batch) (rest : List Batch) (topic : TopicName) :
    submittedTo (batch :: rest) topic =
      (if batch.topic = topic then batch.submitted else []) ++ submittedTo rest topic := by
  rw [submittedTo, List.filter_cons]
  split <;> simp_all [submittedTo]

/-- If batches keep to the keys of their records, a partition was given the
records of a key exactly as the topic was, or not at all. -/
theorem landed_keyed {view : StoreView} {batches : List Batch} (homed : ∀ batch ∈ batches, Homed view batch)
    {topic : TopicName} {count : Nat} (known : view.count? topic = some count) (key : String)
    (partition : Nat) :
    keyedBy key (landed batches topic partition) =
      if partition = keyedPartition key count then keyedBy key (submittedTo batches topic) else [] := by
  induction batches with
  | nil => split <;> rfl
  | cons batch rest ih =>
      have later := ih fun other member => homed other (List.mem_cons_of_mem _ member)
      have first : batch.topic = topic → batch.partition ≠ keyedPartition key count →
          keyedBy key batch.submitted = [] := by
        intro same away
        obtain ⟨count', known', home⟩ := homed batch List.mem_cons_self
        rw [same, known] at known'
        cases known'
        refine List.filter_eq_nil_iff.mpr ?_
        intro record member keyed
        exact away (home record member key (by simpa using keyed)).symm
      rw [← List.singleton_append, landed_append, landed_singleton, List.singleton_append,
        submittedTo_cons, keyedBy_append, keyedBy_append, later]
      by_cases same : batch.topic = topic
      · by_cases there : batch.partition = partition
        · rw [if_pos ⟨same, there⟩, if_pos same]
          split
          · rfl
          · rename_i away
            rw [first same (there ▸ away), List.nil_append]
        · rw [if_neg fun both => there both.2, if_pos same]
          split
          · rename_i home
            rw [first same (home ▸ there), List.nil_append]
            rfl
          · rfl
      · rw [if_neg fun both => same both.1, if_neg same]
        rfl

/-- What the broker knows of its records while batches keep to the keys of their
records: a partition shows the end of what it was given. -/
structure KeysKept {model : LogStoreModel} (broker : Broker model) (view : StoreView) : Prop where
  shows : model.Shows broker.store view
  ends : ∀ topic partition log, view.log? topic partition = some log →
    log.records.map Record.submitted <:+ landed broker.appended topic partition
  homed : ∀ batch ∈ broker.appended, Homed view batch

variable {model : LogStoreModel} {broker after : Broker model} {view : StoreView} {topic : TopicName}
  {batch : List ProduceRecord}

theorem KeysKept.new (model : LogStoreModel) : KeysKept (.new model) .empty where
  shows := model.fresh
  ends _ _ _ found := by cases found
  homed := nofun

theorem KeysKept.extend (kept : KeysKept broker view) {later : StoreView}
    (wider : Broker.Extends view later) (shows : model.Shows after.store later)
    (same : after.appended = broker.appended) : KeysKept after later where
  shows := shows
  ends := by
    intro topic partition log found
    rw [same]
    rcases wider.logs topic partition with old | new
    · exact kept.ends topic partition log (old ▸ found)
    · rw [new] at found
      cases found
      exact List.nil_suffix
  homed := by
    intro batch member
    obtain ⟨count, known, home⟩ := kept.homed batch (same ▸ member)
    exact ⟨count, wider.counts _ _ known, home⟩

/-- The records of a batch have the keys of the partition it is routed to. -/
def Broker.Aligned (broker : Broker model) (topic : TopicName) (batch : List ProduceRecord) : Prop :=
  ∀ count, model.partitionCount broker.store topic = some count →
    ∀ record ∈ batch, ∀ key, record.key = some key →
      keyedPartition key count = broker.target batch count

theorem KeysKept.produce (kept : KeysKept broker view) (aligned : broker.Aligned topic batch)
    {result : ProduceResult}
    (ended : Ends Broker.Answers (produce topic batch) broker (.ok result) after) :
    ∃ later, KeysKept after later := by
  obtain ⟨_, _, state, log, grown, outcome, lands⟩ := Broker.produce_ends kept.shows ended
  have known : view.count? topic = some state.config.partitions := by
    rw [StoreView.count?, lands.found]
    rfl
  have counts := StoreView.count?_update lands.found
    (state.partitions.set (broker.target batch state.config.partitions) grown)
  have logs := StoreView.log?_update lands.found lands.here grown
  refine ⟨_, lands.shows, ?_, ?_⟩
  · intro other partition shown found
    rw [lands.appended, landed_append, landed_singleton]
    rw [logs] at found
    by_cases here : other = topic ∧ partition = broker.target batch state.config.partitions
    · obtain ⟨rfl, rfl⟩ := here
      rw [if_pos ⟨rfl, rfl⟩] at found ⊢
      cases found
      obtain ⟨dropped, _, records, _, _⟩ := lands.appends
      have before := kept.ends other _ log (by
        rw [StoreView.log?, lands.found, Option.bind_some, lands.here])
      have added : (outcome.records.map model.readBack).map Record.submitted = batch := by
        rw [List.map_map, ← lands.submitted]
        exact List.map_congr_left fun record _ => model.readBack_submitted record
      rw [records, List.map_drop, List.map_append, added]
      obtain ⟨front, split⟩ := before
      refine (List.drop_suffix dropped _).trans ⟨front, ?_⟩
      rw [← split, List.append_assoc]
    · rw [if_neg here] at found
      rw [if_neg fun both => here ⟨both.1.symm, both.2.symm⟩, List.append_nil]
      exact kept.ends other partition shown found
  · intro other member
    rw [lands.appended] at member
    rcases List.mem_append.mp member with old | new
    · obtain ⟨count, knownOld, home⟩ := kept.homed other old
      exact ⟨count, (counts other.topic).trans knownOld, home⟩
    · cases List.mem_singleton.mp new
      refine ⟨state.config.partitions, (counts topic).trans known, ?_⟩
      exact aligned _ ((model.count kept.shows).trans known)

theorem Produced.keysKept {engine : LogConfig} (run : Produced model engine Broker.Aligned broker) :
    ∃ view, KeysKept broker view := by
  induction run with
  | opened => exact ⟨.empty, .new model⟩
  | created _ ended ih =>
      obtain ⟨view, kept⟩ := ih
      obtain ⟨_, same, later, shows, wider⟩ := Broker.createTopic_ends kept.shows ended
      exact ⟨later, kept.extend wider shows same⟩
  | produced _ aligned ended ih =>
      obtain ⟨view, kept⟩ := ih
      exact kept.produce aligned ended

/-- Whatever is fetched, the records of a key come from its own partition, and in
the order they were produced. -/
structure Broker.KeysTogether (broker : Broker model) : Prop where
  home : ∀ {topic partition start max result after}, model.answers
      (.fetch topic partition start max) broker.store (.ok result) after →
    ∀ config : TopicConfig, model.partitionCount broker.store topic = some config.partitions →
    ∀ record ∈ result.records, ∀ key, record.key = some key →
    ∀ slot, config.partitionFor (some key) slot = partition
  order : ∀ {topic partition start max result after}, model.answers
      (.fetch topic partition start max) broker.store (.ok result) after →
    ∀ key, keyedBy key (result.records.map Record.submitted) <:+:
      keyedBy key (submittedTo broker.appended topic)

theorem KeysKept.fetched (kept : KeysKept broker view) {partition start max : Nat}
    {result : FetchResult} {store : model.Store}
    (answered : model.answers (.fetch topic partition start max) broker.store (.ok result) store) :
    ∃ count, view.count? topic = some count ∧
      result.records.map Record.submitted <:+: landed broker.appended topic partition := by
  obtain ⟨_, ⟨_, ⟨_, failed⟩ | ⟨log, found, fetched⟩⟩, _⟩ := model.step kept.shows answered
  · cases failed
  · cases fetched
    have known : ∃ count, view.count? topic = some count := by
      obtain ⟨state, located, _⟩ := Option.bind_eq_some_iff.mp found
      exact ⟨state.config.partitions, by rw [StoreView.count?, located]; rfl⟩
    obtain ⟨count, known⟩ := known
    refine ⟨count, known, ?_⟩
    have slice : (log.slice start max).map Record.submitted <:+: log.records.map Record.submitted :=
      ((List.take_prefix _ _).isInfix.trans (List.drop_suffix _ _).isInfix).map _
    exact slice.trans (kept.ends topic partition log found).isInfix

/-- While every batch is routed to where the keys of its records belong, all
records of a key are on its partition, in the order they were produced. -/
theorem keys_together {engine : LogConfig} (run : Produced model engine Broker.Aligned broker) :
    broker.KeysTogether := by
  obtain ⟨view, kept⟩ := run.keysKept
  refine ⟨?_, ?_⟩
  · intro topic partition start max result after answered config counted record member key keyed slot
    obtain ⟨count, known, part⟩ := kept.fetched answered
    rw [model.count kept.shows, known] at counted
    cases counted
    have inside : record.submitted ∈ keyedBy key (landed broker.appended topic partition) :=
      List.mem_filter.mpr ⟨part.subset (List.mem_map_of_mem member), decide_eq_true keyed⟩
    rw [landed_keyed kept.homed known] at inside
    split at inside
    · rename_i home
      rw [home]
      rfl
    · cases inside
  · intro topic partition start max result after answered key
    obtain ⟨count, known, part⟩ := kept.fetched answered
    have filtered : keyedBy key (result.records.map Record.submitted) <:+:
        keyedBy key (landed broker.appended topic partition) := part.filter _
    rw [landed_keyed kept.homed known] at filtered
    split at filtered
    · exact filtered
    · rw [List.infix_nil.mp filtered]
      exact List.nil_infix

def pairTopic : TopicConfig where
  name := ⟨"events", valid_events⟩
  partitions := 2
  retention := { segmentMaxRecords := 1, maxRecords := 0 }

def smallEngine : LogConfig := { maxTopics := 10, defaultPartitions := 1, fetchMaxRecords := 10 }

/-- A memory store in which that topic holds the given partitions. -/
def paired (first second : Partition) (produced : Nat) : MemoryLogStore where
  topics := OrderedMap.empty.insert pairTopic.name.asStr
    { config := pairTopic, partitions := [first, second] }
  producedTotal := produced
  fetchedTotal := 0

theorem find?_paired (first second : Partition) (produced : Nat) :
    (paired first second produced).topics.find? pairTopic.name.asStr =
      some { config := pairTopic, partitions := [first, second] } :=
  (OrderedMap.find?_insert _ _ _ _).trans (if_pos rfl)

theorem counts_paired (first second : Partition) (produced : Nat) :
    memoryStore.answers (.partitionCount pairTopic.name) (paired first second produced)
      (.ok (some 2)) (paired first second produced) := by
  change MemoryLogStore.handle _ (paired first second produced) = _
  rw [MemoryLogStore.handle, find?_paired]
  rfl

theorem Produced.begins (met : Broker memoryStore → TopicName → List ProduceRecord → Prop) :
    ∃ broker, Produced memoryStore smallEngine met broker ∧
      broker.store = paired .default .default 0 ∧ broker.roundRobin = 0 ∧ broker.appended = [] := by
  obtain ⟨broker, ended, store, slot, appended⟩ := @Broker.createTopic_runs memoryStore
    (.new memoryStore) (paired .default .default 0) .new smallEngine pairTopic [] rfl (by decide) rfl
    (by decide) rfl
  exact ⟨broker, .created .opened ended, store, slot, appended⟩

def plainBatch : List ProduceRecord := [{ key := none, payload := [1] }]

/-- Two records with keys of different partitions, in one batch. -/
def mixedBatch : List ProduceRecord :=
  [{ key := some "a", payload := [1] }, { key := some "b", payload := [2] }]

/-- The second of them is stored on the partition of the first. -/
theorem keys_apart :
    ∃ broker : Broker memoryStore, Produced memoryStore smallEngine (fun _ _ _ => True) broker ∧
      ¬ broker.KeysTogether := by
  obtain ⟨broker, run, store, slot, appended⟩ := Produced.begins fun _ _ _ => True
  let records : List Record := [⟨0, .epoch, some "a", [1]⟩, ⟨1, .epoch, some "b", [2]⟩]
  let stored := paired ⟨records, 0, 2, 2, 1⟩ .default 2
  have counts : memoryStore.answers (.partitionCount pairTopic.name) broker.store (.ok (some 2))
      (paired .default .default 0) := store ▸ counts_paired .default .default 0
  have target : broker.target mixedBatch 2 = 0 := by
    change keyedPartition "a" 2 = 0
    decide
  have appends : memoryStore.answers (.append pairTopic.name (broker.target mixedBatch 2) mixedBatch .epoch)
      (paired .default .default 0) (.ok ⟨records, none⟩) stored := by
    rw [target]
    rfl
  obtain ⟨after, ended, there, _⟩ := Broker.produce_runs (by decide) rfl counts appends
  refine ⟨after, run.produced trivial ended, ?_⟩
  intro together
  have fetched : memoryStore.answers (.fetch pairTopic.name 0 0 2) after.store (.ok ⟨records, 2, 2⟩)
      { stored with fetchedTotal := 2 } := by
    rw [there]
    rfl
  have counted : memoryStore.partitionCount after.store pairTopic.name = some 2 := by
    rw [there]
    rfl
  have home := together.home fetched pairTopic counted ⟨1, .epoch, some "b", [2]⟩ (by simp [records]) "b"
    rfl 0
  revert home
  decide

/-- A batch of two records with the same key. -/
theorem keys_together_batch :
    ∃ broker : Broker memoryStore, broker.appended ≠ [] ∧
      Produced memoryStore smallEngine Broker.Aligned broker ∧ broker.KeysTogether := by
  obtain ⟨broker, run, store, slot, appended⟩ := Produced.begins Broker.Aligned
  let batch : List ProduceRecord :=
    [{ key := some "a", payload := [1] }, { key := some "a", payload := [2] }]
  let records : List Record := [⟨0, .epoch, some "a", [1]⟩, ⟨1, .epoch, some "a", [2]⟩]
  have counts : memoryStore.answers (.partitionCount pairTopic.name) broker.store (.ok (some 2))
      (paired .default .default 0) := store ▸ counts_paired .default .default 0
  have target : broker.target batch 2 = 0 := by
    change keyedPartition "a" 2 = 0
    decide
  have appends : memoryStore.answers (.append pairTopic.name (broker.target batch 2) batch .epoch)
      (paired .default .default 0) (.ok ⟨records, none⟩) (paired ⟨records, 0, 2, 2, 1⟩ .default 2) := by
    rw [target]
    rfl
  obtain ⟨after, ended, _, _, grown⟩ := Broker.produce_runs (by decide) rfl counts appends
  have aligned : broker.Aligned pairTopic.name batch := by
    intro count counted record member key keyed
    have same : key = "a" := by
      simp only [batch, List.mem_cons, List.not_mem_nil, or_false] at member
      rcases member with rfl | rfl <;> exact (Option.some.inj keyed).symm
    rw [same]
    rfl
  have finished := run.produced aligned ended
  refine ⟨after, ?_, finished, keys_together finished⟩
  rw [grown]
  simp

end Keys

end ConnectForge
