import ConnectForge.Broker.History
import ConnectForge.Infra.Durability

namespace ConnectForge

open Data Infra Interaction

/-! Stores that do what they are asked, as long as there are offsets left. -/

structure LogStoreModel.Serves (model : LogStoreModel) : Prop where
  creates : ∀ {store view} {config : TopicConfig}, model.Shows store view →
    view.find? config.name.asStr = none → config.retention.validate = .ok () →
    ∃ after, model.answers (.createTopic config) store (.ok true) after
  lists : ∀ {store view}, model.Shows store view →
    ∃ topics after, model.answers .topics store (.ok topics) after ∧ topics.length = view.entries.length
  appends : ∀ {store view topic partition log batch} (timestamp : DateTime), model.Shows store view →
    view.log? topic partition = some log → batch ≠ [] → (∀ record ∈ batch, record.Fits) →
    log.next + batch.length < u64Modulus →
    ∃ outcome after, model.answers (.append topic partition batch timestamp) store (.ok outcome) after
  fetches : ∀ {store view topic partition log} (start max : Nat), model.Shows store view →
    view.log? topic partition = some log →
    ∃ found after, model.answers (.fetch topic partition start max) store (.ok found) after

theorem materialize_room {next : Nat} (timestamp : DateTime) {batch : List ProduceRecord}
    (room : next + batch.length < u64Modulus) : ∃ records, materialize next timestamp batch = some records := by
  induction batch generalizing next with
  | nil => exact ⟨[], rfl⟩
  | cons record rest ih =>
      rw [List.length_cons] at room
      obtain ⟨records, found⟩ := ih (show next + 1 + rest.length < u64Modulus by omega)
      exact ⟨_, by rw [materialize, if_pos (by omega), found, Option.map_some]⟩

namespace Broker

variable {model : LogStoreModel} {broker after : Broker model} {topic : TopicName} {partition : Nat}

/-- The partition exists. -/
def Has (broker : Broker model) (topic : TopicName) (partition : Nat) : Prop :=
  ∃ view log, broker.Recalls view ∧ view.log? topic partition = some log

theorem Has.others (has : broker.Has topic partition) (moves : broker.Others after) :
    after.Has topic partition := by
  induction moves with
  | refl => exact has
  | tail _ calls ih =>
      obtain ⟨view, log, recalls, found⟩ := ih
      obtain ⟨view', recalls', later⟩ := recalls.calls calls
      obtain ⟨log', found', _⟩ := later topic partition log found
      exact ⟨view', log', recalls', found'⟩

/-- A topic that was just created: its partitions exist and are empty. -/
structure Created (broker : Broker model) (topic : TopicName) (partitions : Nat) : Prop where
  recalled : broker.Recalled
  empty : ∀ partition, broker.given topic partition = []
  has : ∀ partition < partitions, broker.Has topic partition

theorem Recalled.creates (recalled : broker.Recalled) {config : TopicConfig}
    (answered : Answers (.store (.createTopic config)) broker (.ok true) after) :
    after.Created config.name config.partitions := by
  have later : after.Recalled := recalled.tail ⟨_, _, answered⟩
  obtain ⟨view, recalls⟩ := recalled
  obtain ⟨stored, _, grown, _⟩ := answered
  have same : after.appended = broker.appended := grown.trans (List.append_nil _)
  obtain ⟨_, ⟨impossible, _⟩ | ⟨absent, _, rfl⟩, shows⟩ := model.step recalls.shows stored
  · exact absurd rfl impossible
  have recalls' := recalls.create absent shows same
  refine ⟨later, ?_, ?_⟩
  · intro partition
    rw [given, same]
    apply recalls.absent config.name partition
    rw [StoreView.log?, absent]
    rfl
  · intro partition within
    refine ⟨_, .empty, recalls', ?_⟩
    rw [StoreView.log?, OrderedMap.find?_insert, if_pos rfl, Option.bind_some,
      List.getElem?_replicate, if_pos within]

theorem createTopic_created (recalled : broker.Recalled) {engine : LogConfig} {name : TopicName}
    {partitions : Nat} {retention : RetentionPolicy} (nonzero : partitions ≠ 0)
    (ended : Ends Answers (engine.createTopic name partitions retention) broker (.ok ()) after) :
    after.Created name partitions := by
  unfold LogConfig.createTopic at ended
  simp only [nonzero, ↓reduceIte] at ended
  split at ended
  · cases (ends_done ended).1
  rename_i config built
  obtain ⟨rfl, _⟩ := TopicConfig.new_eq built
  obtain ⟨listed, middle, lists, rest⟩ := ends_bind ended
  have before : middle.Recalled :=
    recalled.trans (Others.ended (@Ends.amid _ _ _ _ Others _ _ _ _ _ (fun _ => .refl) lists))
  cases listed with
  | error reason => cases (ends_done rest).1
  | ok existing =>
      dsimp only at rest
      split at rest
      · cases (ends_done rest).1
      obtain ⟨created, last, creates, rest⟩ := ends_bind rest
      have safe : Safe Answers Eq (fun _ _ => True)
          (fun result later => ∀ created, result = .ok created → created = true →
            later.Created name partitions)
          (storeCall (Program.ask (EngineCall.store (.createTopic ⟨name, partitions, retention⟩)))) middle := by
        apply safe_storeCall Recalled _ before
        intro world recalled
        apply Safe.ask
        intro answer later answered
        refine ⟨?_, fun _ _ => recalled.tail ⟨_, _, answered⟩⟩
        rintro created rfl rfl
        exact recalled.creates answered
      cases created with
      | error reason => cases (ends_done rest).1
      | ok fresh =>
          cases fresh with
          | false => cases (ends_done rest).1
          | true =>
              have made := safe.ends (fun _ => rfl) creates true rfl rfl
              obtain ⟨_, announced, answered, rest⟩ := ends_call rest
              obtain ⟨_, rfl⟩ := ends_done rest
              have told : last.Others after := .single ⟨_, _, answered⟩
              obtain ⟨_, rfl⟩ := answered
              exact ⟨made.recalled.trans told, made.empty, fun partition within =>
                (made.has partition within).others told⟩

theorem createTopic_serves (serves : model.Serves) {engine : LogConfig} {name : TopicName}
    {partitions : Nat} {retention : RetentionPolicy} (nonzero : partitions ≠ 0)
    (valid : retention.validate = .ok ()) (room : 0 < engine.maxTopics) :
    ∃ after, Ends Answers (engine.createTopic name partitions retention) (.new model) (.ok ()) after := by
  obtain ⟨topics, middle, lists, length⟩ := serves.lists model.fresh
  obtain ⟨view, ⟨_, rfl⟩, shows⟩ := model.step model.fresh lists
  obtain ⟨store, creates⟩ := @LogStoreModel.Serves.creates _ serves _ _ ⟨name, partitions, retention⟩ shows rfl valid
  have built : TopicConfig.new name partitions retention = .ok ⟨name, partitions, retention⟩ := by
    rw [TopicConfig.new, if_neg nonzero, valid]
  obtain ⟨after, ended, _⟩ := @createTopic_runs model (.new model) store middle engine
    ⟨name, partitions, retention⟩ topics built nonzero lists (by rw [length]; exact room) creates
  exact ⟨after, ended⟩

end Broker

namespace Infra

theorem memoryStore_serves : memoryStore.Serves where
  creates := by
    intro store view config shows absent _
    rcases OrderedMap.Related.find? shows config.name.asStr with ⟨here, _⟩ | ⟨_, _, _, there, _⟩
    · refine ⟨(store.createTopic config).2, congrArg some (Prod.ext ?_ rfl)⟩
      simp [MemoryLogStore.createTopic, here]
    · cases absent.symm.trans there
  lists := by
    intro store view shows
    refine ⟨_, _, rfl, ?_⟩
    rw [List.length_map]
    exact (List.length_map _).trans (memoryStore.topics shows)
  appends := by
    intro store view topic partition log batch timestamp shows found _ _ room
    rcases partition_shown shows topic partition with ⟨_, there⟩ |
      ⟨state, shown, here, there, _, ⟨_, missing⟩ | ⟨part, log', kept, seen, keeps⟩⟩
    · rw [StoreView.log?, there] at found
      cases found
    · rw [StoreView.log?, there, Option.bind_some, missing] at found
      cases found
    · rw [StoreView.log?, there, Option.bind_some, seen] at found
      cases found
      obtain ⟨records, numbers⟩ := materialize_room timestamp room
      rw [← keeps.next] at numbers
      have stored : ∃ outcome after,
          store.append topic partition batch timestamp = some (.ok outcome, after) := by
        simp [MemoryLogStore.append, here, kept, numbers]
      exact stored
  fetches := by
    intro store view topic partition log start max shows found
    rcases partition_shown shows topic partition with ⟨_, there⟩ |
      ⟨state, shown, here, there, _, ⟨_, missing⟩ | ⟨part, log', kept, seen, keeps⟩⟩
    · rw [StoreView.log?, there] at found
      cases found
    · rw [StoreView.log?, there, Option.bind_some, missing] at found
      cases found
    · refine ⟨part.fetch start max, (store.fetch topic partition start max).2,
        congrArg some (Prod.ext ?_ rfl)⟩
      simp [MemoryLogStore.fetch, here, kept]

namespace FileLogStore

variable {store : FileLogStore} {view : StoreView} {topic : TopicName} {partition : Nat}
  {log : PartitionLog}

theorem Displays.reflects (displays : store.Displays view) : store.Reflects StoredShows view :=
  (⟨displays.topics, displays.valid⟩ : store.Reflects StoredKeeps view).imp
    fun ⟨segmented, represents, _, same⟩ => ⟨segmented, represents, same⟩

theorem Reflects.creates (reflects : store.Reflects StoredShows view) {config : TopicConfig}
    (absent : view.find? config.name.asStr = none) :
    ∃ after, store.handle [] (.createTopic config) = some (.ok true, after) := by
  rcases reflects.topics.find? config.name.asStr with ⟨here, _⟩ | ⟨_, _, _, there, _⟩
  · refine ⟨(store.createTopic config []).2, congrArg some (Prod.ext ?_ rfl)⟩
    simp [FileLogStore.createTopic, here, FileLogStore.performs_quiet]
  · cases absent.symm.trans there

theorem Reflects.lists (reflects : store.Reflects StoredShows view) :
    ∃ topics after, store.handle [] .topics = some (.ok topics, after) ∧
      topics.length = view.entries.length := by
  refine ⟨_, _, rfl, ?_⟩
  rw [List.length_map]
  exact (List.length_map _).trans reflects.topics.length_eq

theorem Reflects.takes (reflects : store.Reflects StoredShows view)
    (known : view.log? topic partition = some log) {batch : List ProduceRecord}
    (fits : ∀ record ∈ batch, record.Fits) (room : log.next + batch.length < u64Modulus)
    (timestamp : DateTime) :
    ∃ outcome after, store.handle [] (.append topic partition batch timestamp) = some (.ok outcome, after) := by
  rcases partition_shown reflects.topics topic partition with ⟨_, there⟩ |
    ⟨state, shown, here, there, _, ⟨_, missing⟩ | ⟨part, log', kept, seen, keeps⟩⟩
  · rw [StoreView.log?, there] at known
    cases known
  · rw [StoreView.log?, there, Option.bind_some, missing] at known
    cases known
  · rw [StoreView.log?, there, Option.bind_some, seen] at known
    cases known
    obtain ⟨segmented, ⟨represented, stored⟩, rfl⟩ := keeps
    obtain ⟨records, numbers⟩ := materialize_room timestamp room
    rw [segmented.view_next] at numbers
    obtain ⟨gone, kept', later, ok, _⟩ := append_quiet (reflects.valid.find? here) fits stored numbers
    have appended : ∃ outcome after, store.append topic partition batch timestamp [] =
        some (.ok outcome, after) := by
      simp [FileLogStore.append, here, kept, represented, ok]
    exact appended

theorem Reflects.reads (reflects : store.Reflects StoredShows view)
    (known : view.log? topic partition = some log) (start max : Nat) :
    ∃ found after, store.handle [] (.fetch topic partition start max) = some (.ok found, after) := by
  rcases partition_shown reflects.topics topic partition with ⟨_, there⟩ |
    ⟨state, shown, here, there, _, ⟨_, missing⟩ | ⟨part, log', kept, seen, keeps⟩⟩
  · rw [StoreView.log?, there] at known
    cases known
  · rw [StoreView.log?, there, Option.bind_some, missing] at known
    cases known
  · obtain ⟨segmented, ⟨represented, stored⟩, rfl⟩ := keeps
    refine ⟨segmented.view.fetch start max, (store.fetch topic partition start max).2,
      congrArg some (Prod.ext ?_ rfl)⟩
    simp [FileLogStore.fetch, here, kept, represented, PartitionState.fetch_partition segmented stored]

end FileLogStore

theorem fileStore_serves : fileStore.Serves where
  creates shows absent valid := by
    obtain ⟨after, created⟩ := (FileLogStore.Displays.reflects shows).creates absent
    exact ⟨after, valid, created⟩
  lists shows := by
    obtain ⟨topics, after, listed, length⟩ := (FileLogStore.Displays.reflects shows).lists
    exact ⟨topics, after, ⟨trivial, listed⟩, length⟩
  appends timestamp shows found _ fits room := by
    obtain ⟨outcome, after, appended⟩ := (FileLogStore.Displays.reflects shows).takes found fits room timestamp
    exact ⟨outcome, after, fits, appended⟩
  fetches start max shows found := by
    obtain ⟨result, after, fetched⟩ := (FileLogStore.Displays.reflects shows).reads found start max
    exact ⟨result, after, trivial, fetched⟩

theorem durableStore_serves : durableStore.Serves where
  creates shows absent valid := by
    obtain ⟨after, created⟩ := FileLogStore.Reflects.creates shows absent
    exact ⟨after, valid, created⟩
  lists shows := by
    obtain ⟨topics, after, listed, length⟩ := FileLogStore.Reflects.lists shows
    exact ⟨topics, after, ⟨trivial, listed⟩, length⟩
  appends timestamp shows found nonempty fits room := by
    obtain ⟨outcome, after, appended⟩ := FileLogStore.Reflects.takes shows found fits room timestamp
    exact ⟨outcome, after, ⟨nonempty, fits⟩, appended⟩
  fetches start max shows found := by
    obtain ⟨result, after, fetched⟩ := FileLogStore.Reflects.reads shows found start max
    exact ⟨result, after, trivial, fetched⟩

end Infra

end ConnectForge
