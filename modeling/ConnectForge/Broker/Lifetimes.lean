import ConnectForge.Broker.History
import ConnectForge.Infra.Durability

namespace ConnectForge

open Data Interaction Infra

/-! A broker over the file store, through any number of lives of its process.  A
life ends with a clean stop, or in the middle of an append. -/

namespace Infra.FileLogStore

/-- Where the next record of a partition goes. -/
def nextOffset (store : FileLogStore) (topic : TopicName) (partition : Nat) : Nat :=
  ((store.topics.find? topic.asStr).bind fun topic =>
    topic.partitions[partition]?.map fun part => part.state.nextOffset).getD 0

variable {store after : FileLogStore} {view : StoreView} {topic : TopicName} {partition : Nat}

theorem Reflects.nextOffset (reflects : store.Reflects StoredShows view) (topic : TopicName) (partition : Nat) :
    store.nextOffset topic partition = ((view.log? topic partition).map PartitionLog.next).getD 0 := by
  rw [FileLogStore.nextOffset, field_shown reflects.topics StoredShows.next topic partition]

/-- What an append that was cut off leaves to recover. -/
theorem Reflects.stopped (reflects : store.Reflects StoredShows view) {batch : List ProduceRecord}
    (fits : ∀ record ∈ batch, record.Fits) {timestamp : DateTime} {faults : List (Option Fault)}
    {result : Except PortError AppendOutcome}
    (stopped : store.append topic partition batch timestamp faults = some (result, after)) :
    after.Reflects StoredLeaves view ∨
    ∃ state log later numbered count, view.find? topic.asStr = some state ∧
      state.partitions[partition]? = some log ∧ materialize log.next timestamp batch = some numbered ∧
      count ≤ numbered.length ∧ log.Gains later ((numbered.take count).map Record.truncate) ∧
      after.Reflects StoredLeaves
        (view.insert topic.asStr { state with partitions := state.partitions.set partition later }) := by
  have leaves : store.Reflects StoredLeaves view := reflects.imp StoredShows.leaves
  rcases append_cases stopped with ⟨_, rfl⟩ | ⟨state, part, next, disk, here, found, cut, rfl⟩
  · exact .inl leaves
  obtain ⟨log, there, both, shown, seen, kept⟩ := found_shown reflects.topics here found
  obtain ⟨numbered, count, later, numbers, bound, gains, kept'⟩ :=
    kept.stopped (reflects.valid.find? here) fits cut
  have both' : TopicShows TopicState.config TopicState.partitions StoredLeaves state log :=
    ⟨both.config, both.partitions.imp fun _ _ => StoredShows.leaves⟩
  exact .inr ⟨log, shown, later, numbered, count, there, seen, numbers, bound, gains,
    leaves.update here both' kept' _⟩

end Infra.FileLogStore

namespace Broker

/-- What a restarted store has of a batch whose append was cut off. -/
def survivors (before after : FileLogStore) (topic : TopicName) (partition : Nat)
    (batch : List ProduceRecord) (timestamp : DateTime) : Batch :=
  let next := before.nextOffset topic partition
  let count := after.nextOffset topic partition - next
  { topic
    partition
    submitted := batch.take count
    records := ((materialize next timestamp batch).getD []).take count }

/-- The end of one life and the start of the next: only the store is left, and the
records of a last append that got to its disk. -/
inductive Dies : Broker durableStore → Broker durableStore → Prop where
  | stopped {broker : Broker durableStore} {store : FileLogStore}
      (restarts : FileLogStore.Restarts broker.store store) :
      Dies broker ⟨store, 0, broker.appended, []⟩
  | crashed {broker : Broker durableStore} {lost store : FileLogStore} {topic : TopicName}
      {partition : Nat} {batch : List ProduceRecord} {timestamp : DateTime}
      {faults : List (Option Fault)} {result : Except PortError AppendOutcome}
      (fits : ∀ record ∈ batch, record.Fits)
      (cut : FileLogStore.append broker.store topic partition batch timestamp faults =
        some (result, lost))
      (recovers : FileLogStore.Recovers lost store) :
      Dies broker ⟨store, 0,
        broker.appended ++ [survivors broker.store store topic partition batch timestamp], []⟩

/-- Any number of calls, restarts and crashes. -/
def Lives : Broker durableStore → Broker durableStore → Prop :=
  Relation.ReflTransGen fun broker after => Calls broker after ∨ Dies broker after

variable {broker middle after : Broker durableStore} {view : StoreView} {topic : TopicName}
  {partition : Nat}

theorem Dies.recalls (dies : Dies broker after) (recalls : broker.Recalls view) :
    ∃ view', after.Recalls view' ∧ view.Later view' := by
  have reflects : FileLogStore.Reflects StoredShows broker.store view := recalls.shows
  cases dies with
  | stopped restarts =>
      exact ⟨view, recalls.quiet (reflects.restarts restarts) rfl, .refl _⟩
  | @crashed lost store topic partition batch timestamp faults result fits cut recovers =>
      have next := reflects.nextOffset topic partition
      rcases reflects.stopped fits cut with
        left | ⟨state, log, later, numbered, count, found, here, numbers, bound, gains, left⟩
      · have back := left.recovers recovers
        have same := (back.nextOffset topic partition).trans next.symm
        have nothing : survivors broker.store store topic partition batch timestamp =
            ⟨topic, partition, [], []⟩ := by
          simp only [survivors, same, Nat.sub_self, List.take_zero]
        rw [nothing]
        refine ⟨view, recalls.still back ?_ ?_, .refl _⟩
        · intro other wanted
          rw [given_batch rfl, List.map_nil, ite_self, List.append_nil]
        · intro other member
          rcases List.mem_append.mp member with old | new
          · exact recalls.batches other old
          · rw [List.mem_singleton.mp new]
            rfl
      · have back := left.recovers recovers
        have next' := back.nextOffset topic partition
        have before : view.log? topic partition = some log := by
          rw [StoreView.log?, found, Option.bind_some, here]
        rw [before] at next
        rw [StoreView.log?_update found here, if_pos ⟨rfl, rfl⟩] at next'
        simp only [Option.map_some, Option.getD_some] at next next'
        have length := gains.next
        rw [List.length_map, List.length_take, Nat.min_eq_left bound] at length
        have kept : survivors broker.store store topic partition batch timestamp =
            ⟨topic, partition, batch.take count, numbered.take count⟩ := by
          simp only [survivors, next, next', length, numbers, Option.getD_some, Nat.add_sub_cancel_left]
        rw [kept]
        refine ⟨_, recalls.gains found here ((materialize_numbered numbers).2.1.take count) ?_ gains back rfl,
          later_update found here gains.evolves.start_le⟩
        rw [List.map_take, materialize_submitted numbers]

theorem Dies.appended (dies : Dies broker after) : broker.appended <+: after.appended := by
  cases dies with
  | stopped _ => exact List.prefix_refl _
  | crashed _ _ _ => exact List.prefix_append _ _

theorem Lives.recalled (lives : broker.Lives after) (recalled : broker.Recalled) : after.Recalled := by
  induction lives with
  | refl => exact recalled
  | tail _ step ih =>
      rcases step with calls | dies
      · exact ih.tail calls
      · obtain ⟨view, recalls⟩ := ih
        obtain ⟨view', recalls', _⟩ := dies.recalls recalls
        exact ⟨view', recalls'⟩

theorem Lives.given_grows (lives : broker.Lives after) (topic : TopicName) (partition : Nat) :
    broker.given topic partition <+: after.given topic partition := by
  induction lives with
  | refl => exact List.prefix_refl _
  | tail _ step ih =>
      apply ih.trans
      rcases step with calls | dies
      · exact Broker.given_grows (.single calls) topic partition
      · exact given_prefix dies.appended topic partition

end Broker

/-- What was acknowledged is kept through all lives to come: a fetch in any of them
that covers a record's offset returns it, unless retention has pruned it, and no
produce in any of them is given its offset. -/
theorem acknowledged_survive {broker middle : Broker durableStore}
    (history : Broker.Lives (.new durableStore) broker) {topic : TopicName} {batch : List ProduceRecord}
    {result : ProduceResult}
    (produced : Ends (Amid Broker.Others Broker.Answers) (produce topic batch) broker (.ok result) middle) :
    ∃ partition records, middle.Placed topic partition batch result records ∧
      ∀ {next after : Broker durableStore}, middle.Lives next →
        (∀ (engine : LogConfig) {start max : Nat} {found : FetchResult},
          Ends (Amid Broker.Others Broker.Answers) (engine.fetch topic partition start max) next (.ok found)
            after →
          ∀ record ∈ records, start ≤ record.offset → record.offset < start + engine.fetchLimit max →
            after.trimmed topic partition ≤ record.offset → record.truncate ∈ found.records) ∧
        (∀ {batch' : List ProduceRecord} {result' : ProduceResult},
          Ends (Amid Broker.Others Broker.Answers) (produce topic batch') next (.ok result') after →
          ∃ partition' records', after.Placed topic partition' batch' result' records' ∧
            (partition' = partition → result.lastOffset < result'.baseOffset)) := by
  have recalled := history.recalled .new
  obtain ⟨partition, records, placed, _⟩ := Broker.produce_places recalled produced
  have recalled' := recalled.trans (Broker.Others.ended produced)
  refine ⟨partition, records, placed, ?_⟩
  intro next after lives
  have lies := placed.lies.grows (lives.given_grows topic partition)
  have now := lives.recalled recalled'
  refine ⟨?_, ?_⟩
  · intro engine start max found fetched record member low high kept
    exact lies.read placed.numbered now fetched member low high kept
  · intro batch' result' produced'
    obtain ⟨partition', records', placed', behind⟩ := Broker.produce_places now produced'
    refine ⟨partition', records', placed', ?_⟩
    rintro rfl
    obtain ⟨front, length, begins⟩ := lies
    have size := begins.length_le
    have count := congrArg List.length placed.submitted
    rw [List.length_append, List.length_map] at size
    rw [List.length_map] at count
    have last := placed.last
    have total := placed.count
    omega

/-! One partition with one record in it. -/

def soloFiles (part : StoredPartition) (fetched produced : Nat) : FileLogStore :=
  { topics := OrderedMap.empty.insert soloTopic.name.asStr { config := soloTopic, partitions := [part] }
    fetchedTotal := fetched
    producedTotal := produced }

def soloLog : SegmentedLog :=
  SegmentedLog.empty.push (show 0 < 9 by decide) (plainRecord 0) rfl ⟨by decide, nofun, by decide⟩ (by decide)

def soloStored : StoredPartition := ⟨soloLog.partition, ⟨soloLog.files, []⟩⟩

theorem plainBatch_asked : FileLogStore.Asked (.append soloTopic.name 0 plainBatch .epoch) := by
  refine ⟨by decide, ?_⟩
  intro record member
  rw [List.mem_singleton.mp member]
  exact .keyless (by decide)

/-- An acknowledged record, the next one torn by a crash, and a fetch after
that. -/
theorem acknowledged_survive_torn :
    ∃ (broker middle next after : Broker durableStore) (result : ProduceResult) (found : FetchResult),
      Ends (Amid Broker.Others Broker.Answers) (produce soloTopic.name plainBatch) broker (.ok result)
        middle ∧
      Broker.Dies middle next ∧
      Ends (Amid Broker.Others Broker.Answers) (smallEngine.fetch soloTopic.name 0 0 3) next (.ok found)
        after ∧
      ∃ record ∈ found.records, record.submitted = { key := none, payload := [1] } := by
  let made : Broker durableStore := ⟨soloFiles ⟨.fresh, .empty⟩ 0 0, 0, [], []⟩
  have creates : Broker.Calls (.new durableStore) made :=
    ⟨.store (.createTopic soloTopic), .ok true, ⟨rfl, rfl⟩, rfl, rfl, rfl⟩
  obtain ⟨⟨store, slot, batches, events⟩, produced, stored, _, appended⟩ :=
    @Broker.produce_runs durableStore made soloTopic.name (soloFiles soloStored 0 1) made.store plainBatch 1
      ⟨[plainRecord 0], none⟩ (by decide) rfl ⟨trivial, rfl⟩ ⟨plainBatch_asked, rfl⟩
  dsimp only at stored appended
  subst stored
  have among := @Ends.amid _ _ _ _ Broker.Others _ _ _ _ _ (fun _ => .refl) produced
  obtain ⟨partition, records, placed, later⟩ := acknowledged_survive (.single (.inl creates)) among
  -- The write of the next record fails after seven bytes.
  obtain ⟨lost, dir, cut, torn⟩ : ∃ lost dir,
      FileLogStore.append (soloFiles soloStored 0 1) soloTopic.name 0 plainBatch .epoch
          [some { written := 7, reason := "killed" }] =
        some (.error (.transient "killed"), soloFiles ⟨lost, dir⟩ 0 1) ∧
      dir.files = withTail soloLog.files ((encode (plainRecord 1)).take 7) := ⟨_, _, rfl, rfl⟩
  let back : StoredPartition := ⟨soloLog.partition, { dir with files := soloLog.files }⟩
  have recovers : FileLogStore.Recovers (soloFiles ⟨lost, dir⟩ 0 1) (soloFiles back 0 0) :=
    ⟨OrderedMap.All.empty.insert _ (show Descends soloTopic.name.asStr by decide),
      OrderedMap.Related.empty.insert _ ⟨rfl, .cons ⟨_, .refl _, recover_torn soloLog rfl torn (.refl _)⟩ .nil⟩,
      rfl, rfl⟩
  obtain ⟨next, dies, there⟩ : ∃ next, Broker.Dies ⟨soloFiles soloStored 0 1, slot, batches, events⟩ next ∧
      next.store = soloFiles back 0 0 :=
    ⟨_, .crashed plainBatch_asked.2 cut recovers, rfl⟩
  have reads := @Broker.fetch_runs durableStore next soloTopic.name 0 (soloFiles back 1 0) (soloFiles back 0 0)
    smallEngine 0 3 1 (soloLog.view.fetch 0 3) (by decide) ⟨trivial, by rw [there]; rfl⟩ ⟨trivial, rfl⟩
  have read := @Ends.amid _ _ _ _ Broker.Others _ _ _ _ _ (fun _ => .refl) reads
  obtain rfl : partition = 0 := by
    apply placed.partition_eq (by decide)
    rw [appended]
    intro batch member
    rw [List.mem_singleton.mp member]
    rfl
  obtain ⟨record, rest, split, submitted, offset⟩ := placed.first
  have member := (later (.single (.inr dies))).1 smallEngine read record (by simp [split])
    (Nat.zero_le _) (by rw [offset]; decide) (Nat.zero_le _)
  exact ⟨_, _, _, _, _, _, among, dies, read, record.truncate, member, submitted⟩

end ConnectForge
