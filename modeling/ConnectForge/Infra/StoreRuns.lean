import ConnectForge.Core.Engine
import ConnectForge.Data.Tree
import ConnectForge.Infra.CrashRecovery
import ConnectForge.Infra.FileStore

namespace ConnectForge.Infra

open Data SegmentedLog

/-! The file store over whole runs: calls that may meet I/O errors, restarts,
and crashes in the middle of an append. -/

def Represents (part : StoredPartition) (log : SegmentedLog) : Prop :=
  part.state = log.partition ∧ part.dir.files = log.files

def InStep (part : StoredPartition) : Prop := ∃ log, Represents part log

/-- A directory that holds a log, with at most a torn frame behind it. -/
def Recoverable (part : StoredPartition) : Prop :=
  ∃ (log : SegmentedLog) (torn : Bytes), decode torn 0 = none ∧ part.dir.files = withTail log.files torn

theorem InStep.recoverable {part : StoredPartition} (inStep : InStep part) : Recoverable part := by
  obtain ⟨log, _, stored⟩ := inStep
  exact ⟨log, [], rfl, stored.trans (withTail_empty log.files).symm⟩

/-- A partition rebuilt from its directory, listed in any order. -/
def Reopened (old new : StoredPartition) : Prop :=
  ∃ listing, listing.Perm old.dir.names ∧
    recoverPartition listing old.dir = .ok (new.state, new.dir)

/-- What a process leaves of a partition: its files as they are if it is killed, and
otherwise with what the writers still get out when the store is dropped. -/
inductive StoredPartition.Leaves (part : StoredPartition) : Directory → Prop where
  | killed : Leaves part part.dir
  | dropped (faults : List (Option Fault)) :
      Leaves part (part.state.drop { dir := part.dir, faults }).dir

/-- A partition rebuilt from what the process before left of it. -/
def Restarted (old new : StoredPartition) : Prop :=
  ∃ dir, old.Leaves dir ∧ Reopened { old with dir } new

/-- Segments whose writers hold nothing back leave the files as they are. -/
theorem drop_flushed {segments : List Segment}
    (flushed : ∀ segment ∈ segments, segment.writer = .new segment.path) (disk : Disk) :
    segments.foldl (fun disk segment => segment.writer.drop disk) disk = disk := by
  induction segments with
  | nil => rfl
  | cons segment rest ih =>
      rw [List.foldl_cons, flushed segment List.mem_cons_self, BufWriter.drop_new]
      exact ih fun other member => flushed other (List.mem_cons_of_mem _ member)

theorem StoredPartition.Leaves.flushed {part : StoredPartition} {dir : Directory} (leaves : part.Leaves dir)
    (flushed : ∀ segment ∈ part.state.segments, segment.writer = .new segment.path) : dir = part.dir := by
  cases leaves with
  | killed => rfl
  | dropped faults => exact congrArg Disk.dir (drop_flushed flushed { dir := part.dir, faults })

theorem flushed_placed {places : List (Nat × List Record)} :
    ∀ segment ∈ places.map fun place => Segment.holding place.1 place.2,
      segment.writer = .new segment.path := by
  intro segment member
  obtain ⟨place, _, rfl⟩ := List.mem_map.mp member
  rfl

theorem InStep.leaves {part : StoredPartition} {dir : Directory} (inStep : InStep part)
    (leaves : part.Leaves dir) : dir = part.dir := by
  obtain ⟨log, represented, _⟩ := inStep
  refine leaves.flushed ?_
  rw [represented]
  exact flushed_placed

theorem InStep.restarted {old new : StoredPartition} (inStep : InStep old) (restarted : Restarted old new) :
    Reopened old new := by
  obtain ⟨dir, leaves, reopened⟩ := restarted
  rw [inStep.leaves leaves] at reopened
  exact reopened

theorem Recoverable.reopened {old new : StoredPartition} (recoverable : Recoverable old)
    (reopened : Reopened old new) : InStep new := by
  obtain ⟨log, torn, ended, stored⟩ := recoverable
  obtain ⟨listing, listed, recovered⟩ := reopened
  rw [recover_torn log ended stored listed] at recovered
  cases new
  cases recovered
  exact ⟨log, rfl, rfl⟩

structure TopicOf (good : StoredPartition → Prop) (topic : TopicState) : Prop where
  valid : topic.config.retention.validate = .ok ()
  partitions : ∀ part ∈ topic.partitions, good part

structure TopicAgain (again : StoredPartition → StoredPartition → Prop) (old new : TopicState) : Prop where
  config : new.config = old.config
  partitions : List.Forall₂ again old.partitions new.partitions

theorem TopicOf.again {good good' : StoredPartition → Prop} {again : StoredPartition → StoredPartition → Prop}
    (renews : ∀ old new, again old new → good old → good' new) {old new : TopicState}
    (before : TopicOf good old) (back : TopicAgain again old new) : TopicOf good' new :=
  ⟨by rw [back.config]; exact before.valid, forall₂_all back.partitions (renews _ _) before.partitions⟩

/-- The calls that create no topic named `.` or `..`, whose directory would not be
one that recovery finds. -/
def Named : StoreCall → Prop
  | .createTopic config => Descends config.name.asStr
  | _ => True

namespace FileLogStore

/-- A store whose valid topics have only partitions of the given kind. -/
def Every (good : StoredPartition → Prop) (store : FileLogStore) : Prop :=
  store.topics.All (TopicOf good)

variable {good : StoredPartition → Prop} {store after : FileLogStore} {topic : TopicName}
  {partition : Nat}

theorem Every.update (every : store.Every good) {state : TopicState}
    (found : store.topics.find? topic.asStr = some state) {part : StoredPartition}
    (holds : good part) (produced : Nat) :
    FileLogStore.Every good { store with
      topics := store.topics.insert topic.asStr
        { state with partitions := state.partitions.set partition part }
      producedTotal := produced } := by
  have topics := every.find? found
  refine OrderedMap.All.insert every _ ⟨topics.valid, ?_⟩
  intro other member
  rcases List.mem_or_eq_of_mem_set member with old | rfl
  · exact topics.partitions other old
  · exact holds

theorem Every.createTopic (every : store.Every InStep) {config : TopicConfig}
    (valid : config.retention.validate = .ok ()) (faults : List (Option Fault)) :
    (store.createTopic config faults).2.Every InStep := by
  unfold FileLogStore.createTopic
  split
  · exact every
  · split
    · exact every
    · refine OrderedMap.All.insert every _ ⟨valid, ?_⟩
      intro part member
      rw [List.eq_of_mem_replicate member]
      exact ⟨.empty, rfl, rfl⟩

theorem fetch_cases {start max : Nat} {result : FetchResult}
    (fetched : store.fetch topic partition start max = (.ok result, after)) :
    ∃ state part, store.topics.find? topic.asStr = some state ∧
      state.partitions[partition]? = some part ∧ part.state.fetch start max part.dir = .ok result := by
  unfold FileLogStore.fetch at fetched
  split at fetched
  · cases fetched
  next state found =>
    split at fetched
    · cases fetched
    next part here =>
      split at fetched
      · cases fetched
      next read =>
        cases fetched
        exact ⟨state, part, found, here, read⟩

/-- A fetch changes nothing but the count of what was fetched. -/
theorem fetch_after {start max : Nat} {answer : Except PortError FetchResult}
    (called : store.fetch topic partition start max = (answer, after)) :
    after = { store with
      fetchedTotal := store.fetchedTotal +
        answer.toOption.elim 0 fun result => result.records.length } := by
  unfold FileLogStore.fetch at called
  split at called
  · cases called
    rfl
  · split at called
    · cases called
      rfl
    · split at called <;> cases called <;> rfl

theorem fetch_topics (store : FileLogStore) (topic : TopicName) (partition start max : Nat) :
    (store.fetch topic partition start max).2.topics = store.topics := by
  rw [fetch_after (Prod.eta (store.fetch topic partition start max)).symm]

theorem createTopic_after (store : FileLogStore) (config : TopicConfig) :
    (store.createTopic config []).2 = store ∨
    (store.createTopic config []).2 = { store with
      topics := store.topics.insert config.name.asStr
        { config, partitions := List.replicate config.partitions { state := .fresh, dir := .empty } } } := by
  unfold FileLogStore.createTopic
  split
  · exact .inl rfl
  · rw [performs_quiet]
    exact .inr rfl

theorem append_cases {records : List ProduceRecord} {timestamp : DateTime}
    {faults : List (Option Fault)} {result : Except PortError AppendOutcome}
    (called : store.append topic partition records timestamp faults = some (result, after)) :
    (∃ reason, result = .error reason) ∧ after = store ∨
    ∃ state part next disk, store.topics.find? topic.asStr = some state ∧
      state.partitions[partition]? = some part ∧
      part.state.append state.config.retention records timestamp { dir := part.dir, faults } =
        some (result, next, disk) ∧
      after = { store with
        topics := store.topics.insert topic.asStr
          { state with partitions := state.partitions.set partition { state := next, dir := disk.dir } }
        producedTotal := store.producedTotal +
          result.toOption.elim 0 fun outcome => outcome.records.length } := by
  cases found : store.topics.find? topic.asStr with
  | none =>
      simp only [append, found, Option.some.injEq] at called
      cases called
      exact .inl ⟨⟨_, rfl⟩, rfl⟩
  | some state =>
      cases here : state.partitions[partition]? with
      | none =>
          simp only [append, found, here, Option.some.injEq] at called
          cases called
          exact .inl ⟨⟨_, rfl⟩, rfl⟩
      | some part =>
          simp only [append, found, here] at called
          cases appended : part.state.append state.config.retention records timestamp
              { dir := part.dir, faults } with
          | none => simp [appended] at called
          | some outcome =>
              obtain ⟨ended, next, disk⟩ := outcome
              rw [appended] at called
              refine .inr ⟨state, part, next, disk, rfl, here, ?_⟩
              cases ended <;> cases called <;> exact ⟨appended, rfl⟩

theorem Every.stopped (every : store.Every InStep) {records : List ProduceRecord}
    (fits : ∀ record ∈ records, record.Fits) {timestamp : DateTime} {faults : List (Option Fault)}
    {result : Except PortError AppendOutcome}
    (called : store.append topic partition records timestamp faults = some (result, after)) :
    after.Every Recoverable := by
  have recoverable : store.Every Recoverable :=
    every.imp fun topic => ⟨topic.valid, fun part member => (topic.partitions part member).recoverable⟩
  rcases append_cases called with ⟨_, rfl⟩ | ⟨state, part, next, disk, found, here, stopped, rfl⟩
  · exact recoverable
  have topics := every.find? found
  obtain ⟨log, represented, stored⟩ := topics.partitions part (List.mem_of_getElem? here)
  rw [represented] at stopped
  cases numbers : materialize log.next timestamp records with
  | none =>
      have panicked : materialize log.partition.nextOffset timestamp records = none := numbers
      simp [PartitionState.append, panicked] at stopped
  | some materialized =>
      obtain ⟨count, gone, kept, torn, cut⟩ := append_stopped topics.valid fits stored numbers stopped
      exact recoverable.update found ⟨kept, torn, cut.ended, cut.files⟩ _

/-- A store opened where another one was, none of whose topics is named `.` or
`..`. -/
structure ComesBack (again : StoredPartition → StoredPartition → Prop) (before after : FileLogStore) :
    Prop where
  descend : before.topics.All fun topic => Descends topic.config.name.asStr
  topics : OrderedMap.Related (TopicAgain again) before.topics after.topics
  fetched : after.fetchedTotal = 0
  produced : after.producedTotal = 0

/-- The process before has ended. -/
abbrev Restarts (before after : FileLogStore) : Prop := before.ComesBack Restarted after

/-- The process before was killed in the middle of a call. -/
abbrev Recovers (before after : FileLogStore) : Prop := before.ComesBack Reopened after

theorem ComesBack.every {good good' : StoredPartition → Prop}
    {again : StoredPartition → StoredPartition → Prop}
    (renews : ∀ old new, again old new → good old → good' new) (back : store.ComesBack again after)
    (every : store.Every good) : after.Every good' :=
  back.topics.all every fun back topic => topic.again renews back

theorem Restarts.every (restarts : store.Restarts after) (every : store.Every InStep) : after.Every InStep :=
  ComesBack.every (fun _ _ again inStep => inStep.recoverable.reopened (inStep.restarted again)) restarts every

theorem Recovers.every (recovers : store.Recovers after) (every : store.Every Recoverable) :
    after.Every InStep :=
  ComesBack.every (fun _ _ again recoverable => recoverable.reopened again) recovers every

end FileLogStore

/-- The states of a store whose calls meet only the errors that are allowed.  A
topic that a failed creation left on disk comes back with a restart as one that
was just created. -/
inductive Reached (allowed : FileLogStore → StoreCall → List (Option Fault) → Prop) :
    FileLogStore → Prop where
  | opened : Reached allowed .new
  | call {store after} {request : StoreCall} {faults : List (Option Fault)} {answer : request.Answer}
      (earlier : Reached allowed store) (issued : Issued request)
      (met : allowed store request faults)
      (handled : FileLogStore.handle faults request store = some (answer, after)) :
      Reached allowed after
  | restart {store after} (earlier : Reached allowed store)
      (restarts : FileLogStore.Restarts store after) : Reached allowed after
  | crash {store lost after} {topic : TopicName} {partition : Nat} {records : List ProduceRecord}
      {timestamp : DateTime} {faults : List (Option Fault)} {result}
      (earlier : Reached allowed store) (fits : ∀ record ∈ records, record.Fits)
      (stopped : store.append topic partition records timestamp faults = some (result, lost))
      (recovers : FileLogStore.Recovers lost after) : Reached allowed after

/-- If no append that is allowed puts a partition out of step, none ever is. -/
theorem Reached.inStep {allowed : FileLogStore → StoreCall → List (Option Fault) → Prop}
    (keeps : ∀ {store after : FileLogStore} {topic partition records timestamp faults result},
      store.Every InStep → Issued (.append topic partition records timestamp) →
      allowed store (.append topic partition records timestamp) faults →
      store.append topic partition records timestamp faults = some (result, after) →
      after.Every InStep)
    {store : FileLogStore} (reached : Reached allowed store) : store.Every InStep := by
  induction reached with
  | opened => exact fun entry member => by cases member
  | @call store after request faults answer earlier issued met handled ih =>
      cases request with
      | createTopic config =>
          have created := ih.createTopic (TopicConfig.new_eq issued).2 faults
          rw [Option.some.inj handled] at created
          exact created
      | append topic partition records timestamp => exact keeps ih issued met handled
      | fetch topic partition start max =>
          have same := store.fetch_topics topic partition start max
          rw [Option.some.inj handled] at same
          unfold FileLogStore.Every at ih ⊢
          rw [same]
          exact ih
      | topics | partitionCount topic | stats =>
          cases handled
          exact ih
  | restart earlier restarts ih => exact FileLogStore.Restarts.every restarts ih
  | crash earlier fits stopped recovers ih =>
      exact FileLogStore.Recovers.every recovers (ih.stopped fits stopped)

end ConnectForge.Infra
