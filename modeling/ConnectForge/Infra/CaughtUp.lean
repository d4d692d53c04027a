import ConnectForge.Core.SinkRounds
import ConnectForge.Core.Tailing
import ConnectForge.Infra.Legible
import ConnectForge.Infra.ProduceRetries
import ConnectForge.Infra.StoreInvariants

namespace ConnectForge

open Data Interaction

/-! A sink runtime that reads from a store others use as well. -/

/-- The store, what the runtime and the checkpoint store remember, and the store
as it was when the round read from it. -/
structure SinkHost (Store : Type) where
  store : Store
  cursor : Option Nat
  persisted : Option Nat
  read : Option Store

section Hosts

variable {Store : Type} (answers : (request : StoreCall) → Store → request.Answer → Store → Prop)

def Calls : Store → Store → Prop :=
  Relation.ReflTransGen fun store after => ∃ request answer, answers request store answer after

/-- The answers to a runtime: those of the log come from the store, the other
ports answer as they like. -/
def HostAnswers : (request : SinkCall) → SinkHost Store → request.Answer → SinkHost Store → Prop
  | .readCursor, host, answer, after => answer = host.cursor ∧ after = host
  | .writeCursor offset, host, _, after => after = { host with cursor := some offset }
  | .load _ _ _, host, answer, after =>
      after = host ∧ ((∃ reason, answer = .error reason) ∨ answer = .ok host.persisted)
  | .save checkpoint, host, answer, after =>
      after = { host with persisted := some checkpoint.offset } ∨
        (∃ reason, answer = .error reason) ∧ after = host
  | .fetch topic partition start max, host, answer, after =>
      ∃ store, answers (.fetch topic partition start max) host.store answer store ∧
        after = { host with store, read := some host.store }
  | .deliver _, host, _, after => after = host
  | .deadLetter _, host, _, after => after = host
  | .now, host, _, after => after = host
  | .addProcessed, host, _, after => after = host
  | .addDead, host, _, after => after = host
  | .readProcessed, host, _, after => after = host
  | .readDead, host, _, after => after = host

/-- The same with calls of others before each of the runtime's own. -/
def Hosted (request : SinkCall) (host : SinkHost Store) (answer : request.Answer)
    (after : SinkHost Store) : Prop :=
  ∃ moved, Calls answers host.store moved ∧
    HostAnswers answers request { host with store := moved } answer after

variable {answers} {runtime : SinkRuntime} {host after : SinkHost Store}

theorem hosted_resolveCheckpoint {start : Nat}
    (ended : Ends (Hosted answers) runtime.resolveCheckpoint host (.ok start) after) :
    Calls answers host.store after.store ∧ after.cursor = some start := by
  obtain ⟨cached, read, ⟨moved, moves, same, rfl⟩, rest⟩ := ends_call ended
  cases cached with
  | some cursor =>
      obtain ⟨value, rfl⟩ := ends_done rest
      cases value
      exact ⟨moves, same.symm⟩
  | none =>
      obtain ⟨found, loaded, ⟨later, calls, rfl, _⟩, rest⟩ := ends_call rest
      cases found with
      | error reason => cases (ends_done rest).1
      | ok found =>
          obtain ⟨_, written, ⟨last, more, rfl⟩, rest⟩ := ends_call rest
          obtain ⟨value, rfl⟩ := ends_done rest
          cases value
          exact ⟨(moves.trans calls).trans more, rfl⟩

/-- A round that polled nothing made a fetch from its checkpoint that came back
empty. -/
theorem hosted_idle {report : DeliveryReport}
    (ended : Ends (Hosted answers) runtime.runOnce host (.ok report) after)
    (idle : report.polled = 0) :
    ∃ read store result, Calls answers host.store read ∧
      answers (.fetch runtime.topic runtime.partition report.checkpoint runtime.config.batchSize) read
        (.ok result) store ∧
      result.records = [] ∧ after.read = some read ∧ after.cursor = some report.checkpoint := by
  obtain ⟨resolved, positioned, first, rest⟩ := ends_bind ended
  cases resolved with
  | error reason => cases (ends_done rest).1
  | ok start =>
      obtain ⟨reached, cursor⟩ := hosted_resolveCheckpoint first
      obtain ⟨answer, fetched, ⟨read, calls, store, answered, rfl⟩, rest⟩ := ends_call rest
      cases answer with
      | error reason => cases (ends_done rest).1
      | ok result =>
          change Ends _ (runtime.processBatch start result.records) _ _ _ at rest
          by_cases empty : result.records = []
          · rw [empty, runtime.processBatch_nil] at rest
            obtain ⟨value, rfl⟩ := ends_done rest
            cases value
            exact ⟨read, store, result, reached.trans calls, answered, empty, rfl, cursor⟩
          · -- A batch that is not empty is reported as polled.
            obtain ⟨_, _, _, ⟨_, _, impossible, _⟩ | ⟨_, _, _, _, ⟨_, _, impossible, _⟩ | ⟨_, _, polled⟩⟩⟩ :=
              ends_processBatch empty rest
            · cases impossible
            · cases impossible
            · have length := List.length_pos_iff.mpr empty
              have same := polled report rfl
              omega

end Hosts

theorem LogStoreModel.reached (model : LogStoreModel) {store : model.Store}
    (calls : Calls model.answers model.new store) :
    ∃ view, model.Shows store view ∧ view.Unpruned := by
  induction calls with
  | refl => exact ⟨.empty, model.fresh, nofun⟩
  | tail _ step ih =>
      obtain ⟨request, answer, answered⟩ := step
      obtain ⟨view, shows, unpruned⟩ := ih
      obtain ⟨later, answers, shows'⟩ := model.step shows answered
      exact ⟨later, shows', answers.unpruned unpruned⟩

/-- A runtime that asks for records and gets none has passed them all. -/
theorem LogStoreModel.caught_up (model : LogStoreModel)
    {highWatermark : model.Store → TopicName → Nat → Option Nat}
    (next : ∀ {store view topic partition}, model.Shows store view →
      highWatermark store topic partition = (view.log? topic partition).map PartitionLog.next)
    {runtime : SinkRuntime} (positive : 1 ≤ runtime.config.batchSize)
    {host after : SinkHost model.Store} (reached : Calls model.answers model.new host.store)
    {report : DeliveryReport}
    (ended : Ends (Hosted model.answers) runtime.runOnce host (.ok report) after)
    (idle : report.polled = 0) :
    ∃ read watermark, after.read = some read ∧ Calls model.answers host.store read ∧
      highWatermark read runtime.topic runtime.partition = some watermark ∧
      watermark ≤ report.checkpoint ∧ after.cursor = some report.checkpoint := by
  obtain ⟨read, store, result, calls, answered, empty, seen, cursor⟩ := hosted_idle ended idle
  obtain ⟨view, shows, unpruned⟩ := model.reached (reached.trans calls)
  obtain ⟨view', answers, _⟩ := model.step shows answered
  obtain ⟨_, ⟨reason, failed⟩ | ⟨log, found, fetched⟩⟩ := answers
  · cases failed
  · cases fetched
    refine ⟨read, log.next, seen, calls, ?_, ?_, cursor⟩
    · rw [next shows, found]
      rfl
    · exact log.fetch_empty _ _ (unpruned.log? found) positive empty

namespace Infra

/-- The offset the next record of a partition will get. -/
def MemoryLogStore.highWatermark (store : MemoryLogStore) (topic : TopicName) (partition : Nat) :
    Option Nat :=
  (store.topics.find? topic.asStr).bind fun topic =>
    topic.partitions[partition]?.map Partition.nextOffset

def FileLogStore.highWatermark (store : FileLogStore) (topic : TopicName) (partition : Nat) :
    Option Nat :=
  (store.topics.find? topic.asStr).bind fun topic =>
    topic.partitions[partition]?.map fun part => part.state.nextOffset

namespace FileLogStore

/-- The states of a file store over calls and restarts without I/O errors.  What is
appended may be too long for its framing. -/
inductive Served : FileLogStore → Prop where
  | opened : Served .new
  | call {store after} {request : StoreCall} {answer : request.Answer} (earlier : Served store)
      (validated : Validated request) (named : Named request) (called : handle [] request store = some (answer, after)) :
      Served after
  | restart {store after} (earlier : Served store) (restarts : store.Restarts after) : Served after

variable {store after : FileLogStore}

theorem Served.legible (served : store.Served) :
    store.topics.All (TopicEvery TopicState.config TopicState.partitions
      fun _ part => part.state.Legible part.dir) := by
  induction served with
  | opened => exact .empty
  | call _ validated _ called ih =>
      exact every_handle id (fun _ => .fresh) (fun _ _ legible appended => legible.append appended)
        ih validated called
  | restart _ restarts ih =>
      refine restarts.topics.all ih ?_
      intro old new reopened every
      refine ⟨by rw [reopened.config]; exact every.valid, ?_⟩
      refine forall₂_all reopened.partitions ?_ every.partitions
      rintro part part' ⟨dir, leaves, listing, listed, recovered⟩ legible
      rw [leaves.flushed fun segment member => legible.held.flushed member] at listed recovered
      exact legible.reopened listed recovered

theorem Served.calls (served : store.Served)
    (calls : Calls (fun request store answer after => (Validated request ∧ Named request) ∧
      handle [] request store = some (answer, after)) store after) : after.Served := by
  induction calls with
  | refl => exact served
  | tail _ step ih =>
      obtain ⟨request, answer, ⟨validated, named⟩, called⟩ := step
      exact ih.call validated named called

end FileLogStore

section Events

/-! The topic made for tests, with one record in it. -/

theorem MemoryLogStore.holding : ∃ store,
    Calls (fun request store answer after =>
      MemoryLogStore.handle request store = some (answer, after)) .new store ∧
    store.topics.find? eventsTopic.name.asStr = some {
      config := eventsTopic
      partitions := [{
        records := [.fromProduce { key := none, payload := [1] } 0 .epoch]
        startOffset := 0
        nextOffset := 1
        segments := 1
        recordsInActiveSegment := 1 }] } := by
  let made : MemoryLogStore := { MemoryLogStore.new with
    topics := OrderedMap.empty.insert eventsTopic.name.asStr
      { config := eventsTopic, partitions := [.default] } }
  have created : MemoryLogStore.new.handle (.createTopic eventsTopic) = some (.ok true, made) := rfl
  have found : made.topics.find? eventsTopic.name.asStr =
      some { config := eventsTopic, partitions := [.default] } :=
    (OrderedMap.find?_insert _ _ _ _).trans (if_pos rfl)
  obtain ⟨store, appended, located⟩ : ∃ store, made.handle
      (.append eventsTopic.name 0 [{ key := none, payload := [1] }] .epoch) =
        some (.ok { records := [.fromProduce { key := none, payload := [1] } 0 .epoch],
                    truncatedTo := none }, store) ∧
      store.topics.find? eventsTopic.name.asStr = some _ := by
    simp only [MemoryLogStore.handle, MemoryLogStore.append, found]
    exact ⟨_, rfl, (OrderedMap.find?_insert _ _ _ _).trans (if_pos rfl)⟩
  refine ⟨store, ?_, located⟩
  exact (Relation.ReflTransGen.single ⟨_, _, created⟩).tail ⟨_, _, appended⟩

theorem hosted_empty {Store : Type}
    {answers : (request : StoreCall) → Store → request.Answer → Store → Prop}
    {runtime : SinkRuntime} {store after : Store} {start : Nat} {result : FetchResult}
    (fetched : answers (.fetch runtime.topic runtime.partition start runtime.config.batchSize) store
      (.ok result) after) (empty : result.records = []) :
    Ends (Hosted answers) runtime.runOnce ⟨store, none, some start, none⟩
      (.ok { polled := 0, delivered := 0, deadLettered := 0, checkpoint := start })
      ⟨after, some start, some start, some store⟩ := by
  let host : SinkHost Store := ⟨store, none, some start, none⟩
  let placed : SinkHost Store := { host with cursor := some start }
  have cached : Hosted answers .readCursor host none host := ⟨store, .refl, rfl, rfl⟩
  have loaded : Hosted answers (.load runtime.id runtime.topic runtime.partition) host
      (.ok (some start)) host := ⟨store, .refl, rfl, .inr rfl⟩
  have written : Hosted answers (.writeCursor start) host () placed := ⟨store, .refl, rfl⟩
  have read : Hosted answers (.fetch runtime.topic runtime.partition start runtime.config.batchSize)
      placed (.ok result) ⟨after, some start, some start, some store⟩ :=
    ⟨store, .refl, after, fetched, rfl⟩
  refine .call cached (.call loaded (.call written (.call read ?_)))
  change Ends _ (runtime.processBatch start result.records) _ _ _
  rw [empty]
  exact .done

def eventsRuntime (batchSize : Nat) : SinkRuntime :=
  plainSink { guarantee := .atLeastOnce, maxAttempts := 3, batchSize }

end Events

end Infra

end ConnectForge
