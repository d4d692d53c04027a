import ConnectForge.Broker.LiveEvents
import ConnectForge.Interaction.Loop

namespace ConnectForge

open Data Interaction

/-! What a client can rely on of a partition, whatever other clients do: it is a
sequence of records that only grows, and of which only the head is forgotten. -/

structure History where
  given : List Record
  trimmed : Nat
  within : trimmed ≤ given.length
  numbered : Numbered 0 given

namespace History

/-- Reading on from an offset, or from where the head was forgotten. -/
def readAt (given : List Record) (trimmed start max : Nat) : FetchResult where
  records := (given.drop (Nat.max start trimmed)).take max
  nextOffset := nextAfter ((given.drop (Nat.max start trimmed)).take max) (Nat.max start trimmed)
  highWatermark := given.length

structure Explains (history : History) (log : PartitionLog) : Prop where
  start : log.start = history.trimmed
  records : log.records = history.given.drop history.trimmed

variable {history : History} {log later : PartitionLog}

theorem Explains.next (explains : history.Explains log) : log.next = history.given.length := by
  have within := history.within
  rw [PartitionLog.next, explains.start, explains.records, List.length_drop]
  omega

theorem Explains.fetch (explains : history.Explains log) (start max : Nat) :
    log.fetch start max = readAt history.given history.trimmed start max := by
  have above : history.trimmed ≤ Nat.max start history.trimmed := Nat.le_max_right _ _
  have slices : log.slice start max =
      (history.given.drop (Nat.max start history.trimmed)).take max := by
    rw [PartitionLog.slice, explains.start, explains.records, List.drop_drop,
      Nat.add_sub_cancel' above]
  simp only [PartitionLog.fetch, readAt, slices, explains.start, explains.next]

/-- Appending to a partition adds to its history, and pruning trims it. -/
theorem Explains.gains (explains : history.Explains log) {added : List Record}
    (gains : log.Gains later added) (numbered : Numbered log.next added) :
    ∃ grown : History, grown.Explains later ∧ grown.given = history.given ++ added := by
  obtain ⟨count, bound, records, start⟩ := gains
  have within := history.within
  rw [explains.records, List.length_drop] at bound
  rw [explains.next] at numbered
  refine ⟨⟨history.given ++ added, history.trimmed + count, ?_, ?_⟩, ⟨?_, ?_⟩, rfl⟩
  · rw [List.length_append]
    omega
  · exact numbered_append.mpr ⟨history.numbered, by rwa [Nat.zero_add]⟩
  · rw [start, explains.start]
  · rw [records, explains.records, ← List.drop_append_of_le_length within, List.drop_drop]

/-- What a read that covers an offset returns. -/
theorem mem_readAt {given : List Record} {trimmed start max : Nat} {record : Record}
    (there : given[record.offset]? = some record) (low : start ≤ record.offset)
    (high : record.offset < start + max) (kept : trimmed ≤ record.offset) :
    record ∈ (readAt given trimmed start max).records := by
  have above : Nat.max start trimmed ≤ record.offset := Nat.max_le.mpr ⟨low, kept⟩
  have atLeast : start ≤ Nat.max start trimmed := Nat.le_max_left _ _
  apply List.mem_iff_getElem?.mpr
  refine ⟨record.offset - Nat.max start trimmed, ?_⟩
  rw [readAt, List.getElem?_take_of_lt (by omega), List.getElem?_drop, Nat.add_sub_cancel' above]
  exact there

theorem readAt_mem {given : List Record} {trimmed start max : Nat} {record : Record}
    (numbered : Numbered 0 given) (member : record ∈ (readAt given trimmed start max).records) :
    given[record.offset]? = some record ∧ trimmed ≤ record.offset := by
  have inside := List.mem_of_mem_take member
  obtain ⟨index, found⟩ := List.mem_iff_getElem?.mp inside
  have offset := (numbered.drop (Nat.max start trimmed)).getElem? found
  have above : trimmed ≤ Nat.max start trimmed := Nat.le_max_right _ _
  rw [List.getElem?_drop, ← Nat.zero_add (Nat.max start trimmed), ← offset] at found
  exact ⟨found, by omega⟩

end History

namespace StoreView

/-- A topic that is created had no partitions, and has empty ones now. -/
theorem log?_created {view : StoreView} {config : TopicConfig}
    (absent : view.find? config.name.asStr = none) (other : TopicName) (wanted : Nat) :
    let made := view.insert config.name.asStr
      { config, partitions := List.replicate config.partitions .empty }
    log? made other wanted = view.log? other wanted ∨
      (view.log? other wanted = none ∧ log? made other wanted = some .empty) := by
  dsimp only
  rcases log?_create absent other wanted with same | fresh
  · exact .inl same
  · cases known : view.log? other wanted with
    | none => exact .inr ⟨rfl, fresh⟩
    | some log =>
        left
        have elsewhere : other.asStr ≠ config.name.asStr := by
          intro same
          rw [log?, same, absent] at known
          cases known
        rw [← known, log?, OrderedMap.find?_insert, if_neg elsewhere]
        rfl

/-- No partition goes away, and none gets back what it has pruned. -/
def Later (view later : StoreView) : Prop :=
  ∀ topic partition log, view.log? topic partition = some log →
    ∃ log', later.log? topic partition = some log' ∧ log.start ≤ log'.start

theorem Later.refl (view : StoreView) : view.Later view :=
  fun _ _ log found => ⟨log, found, Nat.le_refl _⟩

end StoreView

namespace Broker

variable {model : LogStoreModel}

/-- Any call of any task is answered. -/
def Calls (broker after : Broker model) : Prop :=
  ∃ request answer, Answers request broker answer after

/-- Others at work: any number of their calls. -/
def Others : Broker model → Broker model → Prop := Relation.ReflTransGen Calls

/-- The records a partition was given, as they read back. -/
def given (broker : Broker model) (topic : TopicName) (partition : Nat) : List Record :=
  (recordsOn broker.appended topic partition).map model.readBack

/-- How much of its head a partition has pruned. -/
def trimmed (broker : Broker model) (topic : TopicName) (partition : Nat) : Nat :=
  (model.startOffset broker.store topic partition).getD 0

structure Recalls (broker : Broker model) (view : StoreView) : Prop where
  shows : model.Shows broker.store view
  absent : ∀ topic partition, view.log? topic partition = none → broker.given topic partition = []
  explained : ∀ topic partition log, view.log? topic partition = some log →
    ∃ history : History, history.Explains log ∧ history.given = broker.given topic partition
  batches : ∀ batch ∈ broker.appended, batch.records.map Record.submitted = batch.submitted

variable {broker middle after : Broker model} {view : StoreView} {topic : TopicName} {partition : Nat}

theorem Recalls.still (recalls : broker.Recalls view) (shows : model.Shows after.store view)
    (unchanged : ∀ topic partition, after.given topic partition = broker.given topic partition)
    (batches : ∀ batch ∈ after.appended, batch.records.map Record.submitted = batch.submitted) :
    after.Recalls view := by
  refine ⟨shows, ?_, ?_, batches⟩
  · intro topic partition none
    rw [unchanged]
    exact recalls.absent topic partition none
  · intro topic partition log found
    rw [unchanged]
    exact recalls.explained topic partition log found

theorem Recalls.quiet (recalls : broker.Recalls view) (shows : model.Shows after.store view)
    (same : after.appended = broker.appended) : after.Recalls view :=
  recalls.still shows (fun topic partition => by rw [given, given, same]) (same ▸ recalls.batches)

theorem given_batch {submitted : List ProduceRecord} {records : List Record}
    (grown : after.appended = broker.appended ++ [⟨topic, partition, submitted, records⟩])
    (other : TopicName) (wanted : Nat) :
    after.given other wanted = broker.given other wanted ++
      if other = topic ∧ wanted = partition then records.map model.readBack else [] := by
  rw [given, grown, recordsOn_append, List.map_append]
  dsimp only
  by_cases here : topic = other ∧ partition = wanted
  · rw [if_pos here, if_pos ⟨here.1.symm, here.2.symm⟩]
    rfl
  · rw [if_neg here, if_neg fun both => here ⟨both.1.symm, both.2.symm⟩]
    rfl

theorem Recalls.gains (recalls : broker.Recalls view) {state : TopicLog} {log later : PartitionLog}
    {batch : List ProduceRecord} {records : List Record}
    (found : view.find? topic.asStr = some state) (here : state.partitions[partition]? = some log)
    (numbered : Numbered log.next records) (submitted : records.map Record.submitted = batch)
    (gains : log.Gains later (records.map model.readBack))
    (shows : model.Shows after.store
      (view.insert topic.asStr { state with partitions := state.partitions.set partition later }))
    (grown : after.appended = broker.appended ++ [⟨topic, partition, batch, records⟩]) :
    after.Recalls
      (view.insert topic.asStr { state with partitions := state.partitions.set partition later }) := by
  have updated := StoreView.log?_update found here later
  refine ⟨shows, ?_, ?_, ?_⟩
  · intro other wanted none
    rw [updated other wanted] at none
    rw [given_batch grown]
    split at none
    · cases none
    · rename_i elsewhere
      rw [if_neg elsewhere, List.append_nil]
      exact recalls.absent other wanted none
  · intro other wanted log' known
    rw [updated other wanted] at known
    rw [given_batch grown]
    split at known
    · rename_i same
      obtain ⟨rfl, rfl⟩ := same
      cases known
      have before : view.log? other wanted = some log := by
        rw [StoreView.log?, found, Option.bind_some, here]
      obtain ⟨history, explains, whole⟩ := recalls.explained other wanted log before
      have offsets : Numbered log.next (records.map model.readBack) := by
        rw [Numbered, List.map_map, List.length_map]
        rw [Numbered] at numbered
        rw [← numbered]
        exact List.map_congr_left fun record _ => model.readBack_offset record
      obtain ⟨longer, kept, same⟩ := explains.gains gains offsets
      exact ⟨longer, kept, by rw [same, whole, if_pos ⟨rfl, rfl⟩]⟩
    · rename_i elsewhere
      rw [if_neg elsewhere, List.append_nil]
      exact recalls.explained other wanted log' known
  · rw [grown]
    intro other member
    rcases List.mem_append.mp member with old | new
    · exact recalls.batches other old
    · rw [List.mem_singleton.mp new]
      exact submitted

/-- A partition that has grown, in the view. -/
theorem later_update {state : TopicLog} {log later : PartitionLog}
    (found : view.find? topic.asStr = some state) (here : state.partitions[partition]? = some log)
    (above : log.start ≤ later.start) :
    view.Later
      (view.insert topic.asStr { state with partitions := state.partitions.set partition later }) := by
  intro other wanted log' known
  rw [StoreView.log?_update found here later other wanted]
  split
  · rename_i same
    obtain ⟨rfl, rfl⟩ := same
    have before : view.log? other wanted = some log := by
      rw [StoreView.log?, found, Option.bind_some, here]
    obtain rfl : log = log' := Option.some.inj (before.symm.trans known)
    exact ⟨later, rfl, above⟩
  · exact ⟨log', known, Nat.le_refl _⟩

theorem Recalls.create (recalls : broker.Recalls view) {config : TopicConfig}
    (absent : view.find? config.name.asStr = none)
    (shows : model.Shows after.store (view.insert config.name.asStr
      { config, partitions := List.replicate config.partitions .empty }))
    (same : after.appended = broker.appended) :
    after.Recalls (view.insert config.name.asStr
      { config, partitions := List.replicate config.partitions .empty }) := by
  have created := StoreView.log?_created absent
  have unchanged : ∀ topic partition, after.given topic partition = broker.given topic partition := by
    intro topic partition
    rw [given, given, same]
  refine ⟨shows, ?_, ?_, same ▸ recalls.batches⟩
  · intro other wanted none
    rw [unchanged]
    rcases created other wanted with same | ⟨known, _⟩
    · exact recalls.absent other wanted (same.symm.trans none)
    · exact recalls.absent other wanted known
  · intro other wanted log found
    rw [unchanged]
    rcases created other wanted with same | ⟨known, fresh⟩
    · exact recalls.explained other wanted log (same.symm.trans found)
    · obtain rfl : .empty = log := Option.some.inj (fresh.symm.trans found)
      exact ⟨⟨[], 0, Nat.le_refl _, .nil 0⟩, ⟨rfl, rfl⟩, (recalls.absent other wanted known).symm⟩

theorem Recalls.store (recalls : broker.Recalls view) {request : StoreCall} {answer : request.Answer}
    (answered : Answers (.store request) broker answer after) :
    ∃ view', after.Recalls view' ∧ view.Later view' := by
  obtain ⟨stored, _, grown, _⟩ := answered
  obtain ⟨view', answers, shows⟩ := model.step recalls.shows stored
  cases request with
  | createTopic config =>
      have same : after.appended = broker.appended := grown.trans (List.append_nil _)
      rcases answers with ⟨_, rfl⟩ | ⟨absent, _, rfl⟩
      · exact ⟨_, recalls.quiet shows same, .refl _⟩
      refine ⟨_, recalls.create absent shows same, ?_⟩
      have created := StoreView.log?_created absent
      intro other wanted log found
      rcases created other wanted with same | ⟨known, _⟩
      · exact ⟨log, same.trans found, Nat.le_refl _⟩
      · cases known.symm.trans found
  | append topic partition batch timestamp =>
      rcases answers with ⟨⟨reason, rfl⟩, rfl⟩ | ⟨state, log, outcome, later, found, here, rfl, numbers,
        appends, rfl⟩
      · exact ⟨_, recalls.quiet shows (grown.trans (List.append_nil _)), .refl _⟩
      · exact ⟨_, recalls.gains found here (materialize_numbered numbers).2.1 (materialize_submitted numbers)
          appends.gains shows grown, later_update found here appends.evolves.start_le⟩
  | topics =>
      obtain ⟨_, rfl⟩ := answers
      exact ⟨_, recalls.quiet shows (grown.trans (List.append_nil _)), .refl _⟩
  | partitionCount topic =>
      obtain ⟨_, rfl⟩ := answers
      exact ⟨_, recalls.quiet shows (grown.trans (List.append_nil _)), .refl _⟩
  | fetch topic partition start max =>
      obtain ⟨rfl, _⟩ := answers
      exact ⟨_, recalls.quiet shows (grown.trans (List.append_nil _)), .refl _⟩
  | stats =>
      cases answers
      exact ⟨_, recalls.quiet shows (grown.trans (List.append_nil _)), .refl _⟩

theorem Recalls.calls (recalls : broker.Recalls view) (calls : Calls broker after) :
    ∃ view', after.Recalls view' ∧ view.Later view' := by
  obtain ⟨request, answer, answered⟩ := calls
  cases request with
  | store request => exact recalls.store answered
  | nextSlot =>
      obtain ⟨_, rfl⟩ := answered
      exact ⟨view, recalls.quiet recalls.shows rfl, .refl _⟩
  | publish event =>
      obtain ⟨_, rfl⟩ := answered
      exact ⟨view, recalls.quiet recalls.shows rfl, .refl _⟩
  | tryAcquire count =>
      cases answered
      exact ⟨view, recalls, .refl _⟩
  | now =>
      cases answered
      exact ⟨view, recalls, .refl _⟩

/-- The history of a broker explains what its store shows. -/
def Recalled (broker : Broker model) : Prop := ∃ view, broker.Recalls view

theorem Recalled.new : (Broker.new model).Recalled := by
  refine ⟨.empty, model.fresh, fun _ _ _ => rfl, ?_, ?_⟩
  · intro topic partition log found
    cases found
  · intro batch member
    cases member

theorem Recalled.tail (recalled : broker.Recalled) (calls : Calls broker after) : after.Recalled := by
  obtain ⟨view, recalls⟩ := recalled
  obtain ⟨view', recalls', _⟩ := recalls.calls calls
  exact ⟨view', recalls'⟩

theorem Recalled.trans (recalled : broker.Recalled) (moves : broker.Others after) : after.Recalled := by
  induction moves with
  | refl => exact recalled
  | tail _ calls ih => exact ih.tail calls

theorem Recalls.trimmed (recalls : broker.Recalls view) (topic : TopicName) (partition : Nat) :
    broker.trimmed topic partition = ((view.log? topic partition).map PartitionLog.start).getD 0 := by
  rw [Broker.trimmed, model.start recalls.shows]

/-- The offsets of a partition's records are their places, and only records it was
given are pruned. -/
theorem Recalled.history (recalled : broker.Recalled) (topic : TopicName) (partition : Nat) :
    Numbered 0 (broker.given topic partition) ∧
      broker.trimmed topic partition ≤ (broker.given topic partition).length := by
  obtain ⟨view, recalls⟩ := recalled
  rw [recalls.trimmed]
  cases found : view.log? topic partition with
  | none =>
      rw [recalls.absent topic partition found]
      exact ⟨.nil 0, Nat.zero_le _⟩
  | some log =>
      obtain ⟨history, explains, given⟩ := recalls.explained topic partition log found
      rw [← given]
      refine ⟨history.numbered, ?_⟩
      simp only [Option.map_some, Option.getD_some, explains.start]
      exact history.within

theorem Recalls.trimmed_le {view' : StoreView} (recalls : broker.Recalls view) (recalls' : after.Recalls view')
    (later : view.Later view') (topic : TopicName) (partition : Nat) :
    broker.trimmed topic partition ≤ after.trimmed topic partition := by
  rw [recalls.trimmed, recalls'.trimmed]
  cases found : view.log? topic partition with
  | none => exact Nat.zero_le _
  | some log =>
      obtain ⟨log', found', higher⟩ := later topic partition log found
      rw [found']
      exact higher

theorem Recalled.trimmed_grows (recalled : broker.Recalled) (moves : broker.Others after)
    (topic : TopicName) (partition : Nat) :
    broker.trimmed topic partition ≤ after.trimmed topic partition := by
  induction moves with
  | refl => exact Nat.le_refl _
  | tail moves calls ih =>
      obtain ⟨view, recalls⟩ := recalled.trans moves
      obtain ⟨view', recalls', later⟩ := recalls.calls calls
      exact ih.trans (recalls.trimmed_le recalls' later topic partition)

theorem given_prefix (later : broker.appended <+: after.appended) (topic : TopicName) (partition : Nat) :
    broker.given topic partition <+: after.given topic partition := by
  obtain ⟨more, grown⟩ := later
  rw [given, given, ← grown, recordsOn, recordsOn, List.flatMap_append, List.map_append]
  exact List.prefix_append _ _

theorem given_grows (moves : broker.Others after) (topic : TopicName) (partition : Nat) :
    broker.given topic partition <+: after.given topic partition := by
  induction moves with
  | refl => exact List.prefix_refl _
  | @tail middle last _ calls ih =>
      obtain ⟨request, answer, answered⟩ := calls
      apply ih.trans
      have later : middle.appended <+: last.appended := by
        cases request with
        | store request =>
            obtain ⟨_, _, grown, _⟩ := answered
            exact ⟨_, grown.symm⟩
        | nextSlot =>
            obtain ⟨_, rfl⟩ := answered
            exact List.prefix_refl _
        | publish event =>
            obtain ⟨_, rfl⟩ := answered
            exact List.prefix_refl _
        | tryAcquire count =>
            cases answered
            exact List.prefix_refl _
        | now =>
            cases answered
            exact List.prefix_refl _
      exact given_prefix later topic partition

/-- What an append adds to its partition, in any state a broker can be in. -/
theorem Recalled.appends (recalled : broker.Recalled) {batch : List ProduceRecord} {timestamp : DateTime}
    {outcome : AppendOutcome}
    (answered : Answers (.store (.append topic partition batch timestamp)) broker (.ok outcome) after) :
    after.given topic partition =
        broker.given topic partition ++ outcome.records.map model.readBack ∧
      Numbered (broker.given topic partition).length outcome.records ∧
      outcome.records.map Record.submitted = batch := by
  obtain ⟨view, recalls⟩ := recalled
  obtain ⟨stored, _, grown, _⟩ := answered
  obtain ⟨_, ⟨⟨_, impossible⟩, _⟩ | ⟨state, log, _, later, found, here, same, numbers, _, _⟩, _⟩ :=
    model.step recalls.shows stored
  · cases impossible
  cases same
  have known : view.log? topic partition = some log := by
    rw [StoreView.log?, found, Option.bind_some, here]
  obtain ⟨history, explains, given⟩ := recalls.explained topic partition log known
  rw [← given, ← explains.next]
  refine ⟨?_, (materialize_numbered numbers).2.1, materialize_submitted numbers⟩
  rw [given_batch grown, if_pos ⟨rfl, rfl⟩, given]

/-- The answer to a fetch, in any state a broker can be in. -/
theorem Recalled.reads (recalled : broker.Recalled) {start max : Nat} {found : FetchResult}
    (answered : Answers (.store (.fetch topic partition start max)) broker (.ok found) after) :
    found = History.readAt (broker.given topic partition) (broker.trimmed topic partition) start max := by
  obtain ⟨view, recalls⟩ := recalled
  obtain ⟨_, ⟨rfl, ⟨_, impossible⟩ | ⟨log, known, same⟩⟩, _⟩ := model.step recalls.shows answered.1
  · cases impossible
  obtain ⟨history, explains, given⟩ := recalls.explained topic partition log known
  rw [recalls.trimmed, known, ← given, Except.ok.inj same, explains.fetch]
  simp only [Option.map_some, Option.getD_some, explains.start]

end Broker

/-- The clamp `fetch` puts on the number of records. -/
def LogConfig.fetchLimit (engine : LogConfig) (max : Nat) : Nat :=
  if max < 1 then 1 else Nat.min max engine.fetchMaxRecords

namespace Broker

variable {model : LogStoreModel} {broker after : Broker model} {topic : TopicName} {partition : Nat}

theorem Others.ended {α : Type} {program : EngineProgram α} {value : α}
    (ended : Ends (Amid Others Answers) program broker value after) : broker.Others after := by
  apply Ends.along Others (fun _ => .refl) (fun first second => first.trans second) id _ ended
  exact fun answered => .single ⟨_, _, answered⟩

/-- Tasks are others. -/
theorem Others.tasks {Memo α : Type} {note : Memo → (request : EngineCall) → request.Answer → Memo}
    {fresh : Memo} {starts : EngineProgram α → Prop} {allowed : Broker model → Memo → EngineCall → Prop}
    {state : Tasks (Broker model) Memo EngineCall EngineCall.Answer α}
    (reached : Tasks.Reaches Answers note fresh starts allowed broker state) :
    broker.Others state.world := by
  induction reached with
  | refl => exact .refl
  | tail _ step ih =>
      cases step with
      | spawn _ => exact ih
      | answer _ answered => exact ih.tail ⟨_, _, answered⟩

/-- A fetch of the store, as the engine makes it: its result was read at some
moment between the call and the return. -/
theorem storeFetch_ends (recalled : broker.Recalled) {start max : Nat} {found : FetchResult}
    (ended : Ends (Amid Others Answers)
      (storeCall (Program.ask (EngineCall.store (.fetch topic partition start max)))) broker (.ok found)
        after) :
    ∃ moment, broker.Others moment ∧ moment.Others after ∧ found =
      History.readAt (moment.given topic partition) (moment.trimmed topic partition) start max := by
  have safe : Safe (Amid Others Answers) Eq (fun _ _ => True)
      (fun result later => ∀ found, result = .ok found →
        ∃ moment, broker.Others moment ∧ moment.Others later ∧ found =
          History.readAt (moment.given topic partition) (moment.trimmed topic partition) start max)
      (storeCall (Program.ask (EngineCall.store (.fetch topic partition start max)))) broker := by
    apply safe_storeCall broker.Others _ .refl
    intro world moves
    apply Safe.ask
    rintro answer later ⟨moment, moved, answered⟩
    have before : broker.Others moment := moves.trans moved
    have last : moment.Others later := .single ⟨_, _, answered⟩
    refine ⟨?_, fun _ _ => before.trans last⟩
    rintro found rfl
    exact ⟨moment, before, last, Recalled.reads (recalled.trans before) answered⟩
  exact safe.ends (fun _ => rfl) ended found rfl

/-- An append to the store, as the engine makes it: the records of the batch follow
all that the partition was given before. -/
theorem storeAppend_ends (recalled : broker.Recalled) {batch : List ProduceRecord} {timestamp : DateTime}
    {outcome : AppendOutcome}
    (ended : Ends (Amid Others Answers)
      (storeCall (Program.ask (EngineCall.store (.append topic partition batch timestamp)))) broker
      (.ok outcome) after) :
    ∃ front, broker.given topic partition <+: front ∧
      front ++ outcome.records.map model.readBack <+: after.given topic partition ∧
      Numbered front.length outcome.records ∧ outcome.records.map Record.submitted = batch := by
  have safe : Safe (Amid Others Answers) Eq (fun _ _ => True)
      (fun result later => ∀ outcome, result = .ok outcome →
        ∃ front, broker.given topic partition <+: front ∧
          front ++ outcome.records.map model.readBack <+: later.given topic partition ∧
          Numbered front.length outcome.records ∧ outcome.records.map Record.submitted = batch)
      (storeCall (Program.ask (EngineCall.store (.append topic partition batch timestamp)))) broker := by
    apply safe_storeCall broker.Others _ .refl
    intro world moves
    apply Safe.ask
    rintro answer later ⟨moment, moved, answered⟩
    have before : broker.Others moment := moves.trans moved
    refine ⟨?_, fun _ _ => before.tail ⟨_, _, answered⟩⟩
    rintro outcome rfl
    obtain ⟨grown, numbered, submitted⟩ := Recalled.appends (recalled.trans before) answered
    exact ⟨moment.given topic partition, given_grows before topic partition, by rw [grown], numbered,
      submitted⟩
  exact safe.ends (fun _ => rfl) ended outcome rfl

section Runs

/-! Calls that go through. -/

variable {store middle : model.Store}

theorem fetch_runs {engine : LogConfig} {start max count : Nat} {found : FetchResult}
    (inside : partition < count)
    (counts : model.answers (.partitionCount topic) broker.store (.ok (some count)) middle)
    (reads : model.answers (.fetch topic partition start (engine.fetchLimit max)) middle (.ok found) store) :
    Ends Answers (engine.fetch topic partition start max) broker (.ok found)
      { broker with store := store } := by
  have answered : Ends Answers (partitionCount topic) broker (.ok (some count))
      { broker with store := middle } :=
    storeCall_first (Ends.ask ⟨counts, rfl, (List.append_nil _).symm, rfl⟩)
  have counted : Ends Answers (requireTopic topic) broker (.ok count) { broker with store := middle } :=
    Ends.bind answered .done
  apply Ends.bind counted
  simp only [Nat.not_le.mpr inside, ↓reduceIte]
  exact storeCall_first (Ends.ask ⟨reads, rfl, (List.append_nil _).symm, rfl⟩)

end Runs

end Broker

/-- Records that a partition was given one after the other, from an offset on. -/
def Broker.Lies {model : LogStoreModel} (broker : Broker model) (topic : TopicName) (partition base : Nat)
    (records : List Record) : Prop :=
  ∃ front, front.length = base ∧ front ++ records.map model.readBack <+: broker.given topic partition

/-- The records of a batch that was acknowledged, where they are. -/
structure Broker.Placed {model : LogStoreModel} (broker : Broker model) (topic : TopicName) (partition : Nat)
    (batch : List ProduceRecord) (result : ProduceResult) (records : List Record) : Prop where
  submitted : records.map Record.submitted = batch
  numbered : Numbered result.baseOffset records
  count : result.count = batch.length
  last : result.lastOffset + 1 = result.baseOffset + result.count
  lies : broker.Lies topic partition result.baseOffset records

theorem produceResult_ends {outcome : AppendOutcome} {first : Nat}
    (numbered : Numbered first outcome.records) (nonempty : outcome.records ≠ []) :
    (produceResult outcome).baseOffset = first ∧
      (produceResult outcome).lastOffset + 1 = first + outcome.records.length := by
  have last := numbered.getLast? (List.getLast?_eq_some_getLast nonempty)
  refine ⟨Live.produceResult_base numbered nonempty, ?_⟩
  rw [← last]
  simp [produceResult, List.getLast?_eq_some_getLast nonempty, Offset.next]

namespace Broker

variable {model : LogStoreModel} {broker middle after : Broker model} {topic : TopicName}
  {partition : Nat} {batch : List ProduceRecord} {result : ProduceResult} {records : List Record}

theorem Lies.grows {base : Nat} (lies : middle.Lies topic partition base records)
    (grows : middle.given topic partition <+: after.given topic partition) :
    after.Lies topic partition base records := by
  obtain ⟨front, length, begins⟩ := lies
  exact ⟨front, length, begins.trans grows⟩

theorem Lies.others {base : Nat} (lies : middle.Lies topic partition base records)
    (moves : middle.Others after) : after.Lies topic partition base records :=
  lies.grows (given_grows moves topic partition)

theorem Lies.there {base : Nat} (lies : middle.Lies topic partition base records)
    (numbered : Numbered base records) {record : Record} (member : record ∈ records) :
    (middle.given topic partition)[(model.readBack record).offset]? = some (model.readBack record) := by
  obtain ⟨front, length, later, whole⟩ := lies
  obtain ⟨index, found⟩ := List.mem_iff_getElem?.mp member
  have offset := numbered.getElem? found
  have bound := (List.getElem?_eq_some_iff.mp found).1
  rw [← whole, List.append_assoc, model.readBack_offset, offset, ← length,
    List.getElem?_append_right (Nat.le_add_right _ _), Nat.add_sub_cancel_left,
    List.getElem?_append_left (by simpa using bound), List.getElem?_map, found]
  rfl

theorem Lies.numbered {base : Nat} (lies : middle.Lies topic partition base records)
    (recalled : middle.Recalled) : Numbered base (records.map model.readBack) := by
  obtain ⟨front, length, later, whole⟩ := lies
  have numbered := (recalled.history topic partition).1
  rw [← whole] at numbered
  have follows := (numbered_append.mp (numbered_append.mp numbered).1).2
  rwa [Nat.zero_add, length] at follows

/-- The batches a broker took lie in their partitions. -/
theorem Recalled.lies (recalled : broker.Recalled) {batch : Batch} (member : batch ∈ broker.appended) :
    broker.Lies batch.topic batch.partition ((batch.records.head?.map Record.offset).getD Offset.zero)
      batch.records := by
  cases head : batch.records with
  | nil => exact ⟨[], rfl, List.nil_prefix⟩
  | cons record rest =>
      obtain ⟨before, later, split⟩ := List.append_of_mem member
      have whole : broker.given batch.topic batch.partition =
          ((recordsOn before batch.topic batch.partition).map model.readBack ++
            (record :: rest).map model.readBack) ++
            (recordsOn later batch.topic batch.partition).map model.readBack := by
        rw [given, split, recordsOn, List.flatMap_append, List.flatMap_cons, if_pos ⟨rfl, rfl⟩, head]
        simp only [List.map_append, List.append_assoc]
        rfl
      have numbered := (recalled.history batch.topic batch.partition).1
      rw [whole] at numbered
      have follows := (numbered_append.mp (numbered_append.mp numbered).1).2
      have offset := (numbered_cons.mp follows).1
      rw [model.readBack_offset, Nat.zero_add] at offset
      exact ⟨_, offset.symm, whole ▸ List.prefix_append _ _⟩

/-- A produce that was acknowledged has placed its batch, behind all that was there
before the call. -/
theorem produce_places (recalled : broker.Recalled)
    (ended : Ends (Amid Others Answers) (produce topic batch) broker (.ok result) after) :
    ∃ partition records, after.Placed topic partition batch result records ∧
      (broker.given topic partition).length ≤ result.baseOffset := by
  obtain ⟨admitted, count, counted, partition, routed, timestamp, timed, outcome, stored, admits, requires,
    routes, times, stores, announces, nonempty, _, rfl⟩ := produce_stages ended
  have before : broker.Others timed :=
    ((Others.ended admits).trans (Others.ended requires)).trans
      ((Others.ended routes).trans (Others.ended times))
  obtain ⟨front, there, appended, numbered, submitted⟩ := storeAppend_ends (recalled.trans before) stores
  have filled : outcome.records ≠ [] := by
    intro none
    rw [none] at submitted
    exact nonempty submitted.symm
  have size : (produceResult outcome).count = batch.length := by
    rw [← submitted, List.length_map]
    rfl
  obtain ⟨base, last⟩ := produceResult_ends numbered filled
  have behind := (given_grows before topic partition).trans there
  refine ⟨partition, outcome.records, ⟨submitted, ?_, size, ?_, front, base.symm, ?_⟩, ?_⟩
  · rw [base]
    exact numbered
  · rw [last, base]
    rfl
  · exact appended.trans (given_grows (Others.ended announces) topic partition)
  · rw [base]
    exact behind.length_le

theorem Placed.first {first : ProduceRecord} {others : List ProduceRecord}
    (placed : after.Placed topic partition (first :: others) result records) :
    ∃ record rest, records = record :: rest ∧ record.submitted = first ∧
      record.offset = result.baseOffset := by
  have submitted := placed.submitted
  have numbered := placed.numbered
  cases records with
  | nil => cases submitted
  | cons record rest =>
      exact ⟨record, rest, rfl, (List.cons.inj submitted).1, (numbered_cons.mp numbered).1⟩

/-- A batch lies in a partition that batches were added to. -/
theorem Placed.partition_eq (placed : after.Placed topic partition batch result records)
    (nonempty : batch ≠ []) {only : Nat} (all : ∀ batch ∈ after.appended, batch.partition = only) :
    partition = only := by
  obtain ⟨front, _, later, whole⟩ := placed.lies
  obtain ⟨first, others, rfl⟩ := List.exists_cons_of_ne_nil nonempty
  obtain ⟨record, rest, split, _⟩ := placed.first
  have member : model.readBack record ∈ after.given topic partition := by
    rw [← whole, split]
    simp
  obtain ⟨stored, inside, _⟩ := List.mem_map.mp member
  obtain ⟨other, found, here⟩ := List.mem_flatMap.mp inside
  split at here
  · rename_i same
    rw [← same.2]
    exact all other found
  · cases here

/-- Whatever others do in between, a fetch returns what its partition was at one
moment of the call: a piece of all that was ever appended to it, from where it was
asked or from where the head is pruned. -/
theorem fetch_ends (recalled : broker.Recalled) {engine : LogConfig} {start max : Nat} {found : FetchResult}
    (ended : Ends (Amid Others Answers) (engine.fetch topic partition start max) broker (.ok found) after) :
    ∃ moment, broker.Others moment ∧ moment.Others after ∧
      found = History.readAt (moment.given topic partition) (moment.trimmed topic partition) start
        (engine.fetchLimit max) := by
  obtain ⟨required, counted, requires, rest⟩ := ends_bind ended
  have before := Others.ended requires
  cases required with
  | error reason => cases (ends_done rest).1
  | ok count =>
      dsimp only at rest
      split at rest
      · cases (ends_done rest).1
      obtain ⟨moment, moved, last, read⟩ := storeFetch_ends (recalled.trans before) rest
      exact ⟨moment, before.trans moved, last, read⟩

end Broker

section Reads

variable {model : LogStoreModel} {broker after : Broker model} {topic : TopicName} {partition base : Nat}
  {records : List Record} {engine : LogConfig} {start max : Nat} {found : FetchResult}

/-- What was given is still there later, at its offset. -/
theorem Broker.given_stays (moves : broker.Others after) {index : Nat} {record : Record}
    (there : (broker.given topic partition)[index]? = some record) :
    (after.given topic partition)[index]? = some record := by
  obtain ⟨more, grown⟩ := given_grows moves topic partition
  rw [← grown, List.getElem?_append_left (List.getElem?_eq_some_iff.mp there).1]
  exact there

/-- What was given a fetch that covers it returns, until it is pruned. -/
theorem Broker.given_read (recalled : broker.Recalled)
    (ended : Ends (Amid Others Answers) (engine.fetch topic partition start max) broker (.ok found) after)
    {record : Record} (there : (broker.given topic partition)[record.offset]? = some record)
    (low : start ≤ record.offset) (high : record.offset < start + engine.fetchLimit max)
    (kept : after.trimmed topic partition ≤ record.offset) : record ∈ found.records := by
  obtain ⟨moment, moves, last, rfl⟩ := fetch_ends recalled ended
  have pruned := Recalled.trimmed_grows (recalled.trans moves) last topic partition
  exact History.mem_readAt (given_stays moves there) low high (pruned.trans kept)

/-- What a fetch covers it returns, until it is pruned. -/
theorem Broker.Lies.read (lies : broker.Lies topic partition base records)
    (numbered : Numbered base records) (recalled : broker.Recalled)
    (ended : Ends (Amid Others Answers) (engine.fetch topic partition start max) broker (.ok found) after)
    {record : Record} (member : record ∈ records) (low : start ≤ record.offset)
    (high : record.offset < start + engine.fetchLimit max)
    (kept : after.trimmed topic partition ≤ record.offset) : model.readBack record ∈ found.records := by
  rw [← model.readBack_offset] at low high kept
  exact Broker.given_read recalled ended (lies.there numbered member) low high kept

/-- A fetch from where records begin returns these first. -/
theorem Broker.Lies.reads (lies : broker.Lies topic partition base records) (recalled : broker.Recalled)
    (ended : Ends (Amid Others Answers) (engine.fetch topic partition base max) broker (.ok found) after)
    (kept : after.trimmed topic partition ≤ base) :
    found.records.take records.length = (records.take (engine.fetchLimit max)).map model.readBack := by
  obtain ⟨moment, moves, last, rfl⟩ := Broker.fetch_ends recalled ended
  have pruned := Broker.Recalled.trimmed_grows (recalled.trans moves) last topic partition
  obtain ⟨front, length, later, whole⟩ := lies.others moves
  have from' : Nat.max base (moment.trimmed topic partition) = base := Nat.max_eq_left (pruned.trans kept)
  have short : min records.length (engine.fetchLimit max) ≤ (records.map model.readBack).length := by
    rw [List.length_map]
    exact Nat.min_le_left _ _
  rw [History.readAt, from', ← whole, ← length, List.append_assoc, List.drop_left, List.take_take,
    List.take_append_of_le_length short, ← List.map_take, Nat.min_comm, ← List.take_eq_take_min]

end Reads

open Infra

theorem soloBroker_recalled : (soloBroker .default 0 0 []).Recalled :=
  Broker.Recalled.new.tail ⟨.store (.createTopic soloTopic), .ok true, rfl, rfl, rfl, rfl⟩

/-- Two fetches of a client agree, whatever others do meanwhile: the partition has
not become shorter, what both return is the same, and what the first one returned
is returned again, until it is pruned. -/
theorem fetches_agree {model : LogStoreModel} {broker middle next after : Broker model}
    (recalled : broker.Recalled) {engine : LogConfig} {topic : TopicName} {partition start start' max max' : Nat}
    {found found' : FetchResult}
    (first : Ends (Amid Broker.Others Broker.Answers) (engine.fetch topic partition start max) broker
      (.ok found) middle)
    (moves : middle.Others next)
    (second : Ends (Amid Broker.Others Broker.Answers) (engine.fetch topic partition start' max') next
      (.ok found') after) :
    found.highWatermark ≤ found'.highWatermark ∧
      (∀ record ∈ found.records, ∀ record' ∈ found'.records, record.offset = record'.offset →
        record = record') ∧
      ∀ record ∈ found.records, start' ≤ record.offset →
        record.offset < start' + engine.fetchLimit max' → after.trimmed topic partition ≤ record.offset →
        record ∈ found'.records := by
  obtain ⟨moment, before, last, rfl⟩ := Broker.fetch_ends recalled first
  have between := recalled.trans ((before.trans last).trans moves)
  have there : ∀ record ∈ (History.readAt (moment.given topic partition) (moment.trimmed topic partition)
      start (engine.fetchLimit max)).records,
      (next.given topic partition)[record.offset]? = some record := by
    intro record member
    have early := (History.readAt_mem (Broker.Recalled.history (recalled.trans before) _ _).1 member).1
    exact Broker.given_stays (last.trans moves) early
  refine ⟨?_, ?_, ?_⟩
  · obtain ⟨moment', before', _, rfl⟩ := Broker.fetch_ends between second
    exact (Broker.given_grows ((last.trans moves).trans before') topic partition).length_le
  · obtain ⟨moment', before', _, rfl⟩ := Broker.fetch_ends between second
    intro record member record' member' same
    have numbered := (Broker.Recalled.history (between.trans before') topic partition).1
    have late := (History.readAt_mem numbered member').1
    rw [← same, Broker.given_stays before' (there record member)] at late
    exact Option.some.inj late
  · intro record member low high kept
    exact Broker.given_read between second (there record member) low high kept

/-- A topic that keeps its last two records. -/
def shortTopic : TopicConfig where
  name := ⟨"latest", by decide⟩
  partitions := 1
  retention := { segmentMaxRecords := 1, maxRecords := 2 }

def shortStore (part : Partition) (produced fetched : Nat) : MemoryLogStore where
  topics := OrderedMap.empty.insert shortTopic.name.asStr { config := shortTopic, partitions := [part] }
  producedTotal := produced
  fetchedTotal := fetched

/-- The topic was given so many plain records. -/
def shortBroker (part : Partition) (produced fetched : Nat) : Broker memoryStore where
  store := shortStore part produced fetched
  roundRobin := 0
  appended := (List.range produced).map fun offset =>
    ⟨shortTopic.name, 0, plainBatch, [plainRecord offset]⟩
  published := []

/-- Two fetches from the start of a partition, between which another client appends
a record and the first one is pruned. -/
theorem fetches_agree_pruned :
    ∃ (broker middle next after : Broker memoryStore) (found found' : FetchResult),
      broker.Recalled ∧
      Ends (Amid Broker.Others Broker.Answers) (smallEngine.fetch shortTopic.name 0 0 3) broker
        (.ok found) middle ∧
      middle.Others next ∧
      Ends (Amid Broker.Others Broker.Answers) (smallEngine.fetch shortTopic.name 0 0 3) next
        (.ok found') after ∧
      found.records = [plainRecord 0, plainRecord 1] ∧ after.trimmed shortTopic.name 0 = 1 ∧
      found.highWatermark ≤ found'.highWatermark ∧ plainRecord 1 ∈ found'.records := by
  let full : Partition := ⟨[plainRecord 0, plainRecord 1], 0, 2, 2, 1⟩
  let pruned : Partition := ⟨[plainRecord 1, plainRecord 2], 1, 3, 3, 1⟩
  have appended : ∀ (before later : Partition) (count fetched : Nat) (cut : Option Nat),
      memoryStore.answers (.append shortTopic.name 0 plainBatch .epoch) (shortStore before count fetched)
        (.ok ⟨[plainRecord count], cut⟩) (shortStore later (count + 1) fetched) →
      Broker.Calls (shortBroker before count fetched) (shortBroker later (count + 1) fetched) := by
    intro before later count fetched cut answers
    refine ⟨.store (.append shortTopic.name 0 plainBatch .epoch), .ok ⟨[plainRecord count], cut⟩,
      answers, rfl, ?_, rfl⟩
    simp only [shortBroker, List.range_succ, List.map_append]
    rfl
  have recalled : (shortBroker full 2 0).Recalled := by
    have created : (shortBroker .default 0 0).Recalled :=
      Broker.Recalled.new.tail ⟨.store (.createTopic shortTopic), .ok true, rfl, rfl, rfl, rfl⟩
    have first := created.tail (appended .default ⟨[plainRecord 0], 0, 1, 1, 1⟩ 0 0 none rfl)
    exact first.tail (appended _ full 1 0 none rfl)
  have moves : (shortBroker full 2 2).Others (shortBroker pruned 3 2) :=
    .single (appended full pruned 2 2 (some 1) rfl)
  have fetches := @Broker.fetch_runs memoryStore (shortBroker full 2 0) shortTopic.name 0
    (shortStore full 2 2) (shortStore full 2 0) smallEngine 0 3 1
    ⟨[plainRecord 0, plainRecord 1], 2, 2⟩ (by decide) rfl rfl
  have refetches := @Broker.fetch_runs memoryStore (shortBroker pruned 3 2) shortTopic.name 0
    (shortStore pruned 3 4) (shortStore pruned 3 2) smallEngine 0 3 1
    ⟨[plainRecord 1, plainRecord 2], 3, 3⟩ (by decide) rfl rfl
  have first := @Ends.amid _ _ _ _ Broker.Others _ _ _ _ _ (fun _ => .refl) fetches
  have second := @Ends.amid _ _ _ _ Broker.Others _ _ _ _ _ (fun _ => .refl) refetches
  obtain ⟨longer, _, again⟩ := fetches_agree recalled first moves second
  exact ⟨_, _, _, _, _, _, recalled, first, moves, second, rfl, rfl, longer,
    again _ (by simp) (Nat.zero_le _) (by decide) (Nat.le_refl 1)⟩

end ConnectForge
