import ConnectForge.Broker.Routing
import ConnectForge.Core.Source

namespace ConnectForge

open Data Interaction Infra

/-! What is in the partitions, from producers and from sources. -/

/-- Every record a store shows is valid. -/
def StoreView.Valid (view : StoreView) : Prop :=
  ∀ topic partition log, view.log? topic partition = some log →
    ∀ record ∈ log.records, record.submitted.validate = .ok ()

/-- The records a call brings to the store. -/
def StoreCall.brings : StoreCall → List ProduceRecord
  | .append _ _ records _ => records
  | _ => []

theorem StoreView.Valid.step {readBack : Record → Record}
    (submitted : ∀ record, (readBack record).submitted = record.submitted) {view after : StoreView}
    (valid : view.Valid) {request : StoreCall} (brings : ∀ record ∈ request.brings, record.validate = .ok ())
    {answer : request.Answer} (answered : StoreView.Answers readBack request view answer after) :
    after.Valid := by
  cases request with
  | createTopic config =>
      rcases answered with ⟨_, rfl⟩ | ⟨absent, _, rfl⟩
      · exact valid
      intro topic partition log found
      rcases StoreView.log?_create absent topic partition with same | empty
      · exact valid topic partition log (same ▸ found)
      · rw [empty] at found
        cases found
        exact List.forall_mem_nil _
  | append topic partition records timestamp =>
      rcases answered with ⟨_, rfl⟩ | ⟨state, log, outcome, later, found, here, rfl, numbers, appends, rfl⟩
      · exact valid
      intro other wanted shown located
      rw [StoreView.log?_update found here] at located
      split at located
      · cases located
        intro record member
        rcases appends.mem member with old | new
        · refine valid topic partition log ?_ record old
          rw [StoreView.log?, found, Option.bind_some, here]
        · obtain ⟨written, inside, rfl⟩ := List.mem_map.mp new
          rw [submitted]
          refine brings _ ?_
          rw [StoreCall.brings, ← materialize_submitted numbers]
          exact List.mem_map_of_mem inside
      · exact valid other wanted shown located
  | topics | partitionCount topic =>
      obtain ⟨_, rfl⟩ := answered
      exact valid
  | fetch topic partition start max =>
      obtain ⟨rfl, _⟩ := answered
      exact valid
  | stats =>
      obtain rfl : after = view := answered
      exact valid

variable {model : LogStoreModel}

namespace Broker

/-- Every record in every partition is valid, and so is every record fetched. -/
structure HoldsValid (broker : Broker model) : Prop where
  stored : ∃ view, model.Shows broker.store view ∧ view.Valid
  fetched : ∀ {topic partition start max result after},
    model.answers (.fetch topic partition start max) broker.store (.ok result) after →
    ∀ record ∈ result.records, record.submitted.validate = .ok ()

/-- The answers to a source runtime over the broker's store.  A source returns
what it likes, of batches that meet a condition. -/
def SourceAnswers (met : List ProduceRecord → Prop) :
    (request : SourceCall) → Broker model → request.Answer → Broker model → Prop
  | .poll, broker, answer, after => (∀ records, answer = .ok records → met records) ∧ after = broker
  | .now, broker, _, after => after = broker
  | .append topic partition records timestamp, broker, answer, after =>
      Answers (.store (.append topic partition records timestamp)) broker answer after
  | .addProduced _, broker, _, after => after = broker

variable {met : List ProduceRecord → Prop} {broker after : Broker model}

/-- A round appends what it polled, or changes nothing. -/
theorem runOnce_ends {runtime : SourceRuntime} {result : Except CoreError Nat}
    (ended : Ends (SourceAnswers met) runtime.runOnce broker result after) :
    after = broker ∨ ∃ records timestamp answer, met records ∧
      Answers (.store (.append runtime.topic runtime.partition records timestamp)) broker answer after := by
  obtain ⟨polled, asked, ⟨meets, same⟩, afterPoll⟩ := ends_call ended
  obtain rfl : asked = broker := same
  cases polled with
  | error reason => exact .inl (ends_done afterPoll).2
  | ok records =>
      cases records with
      | nil => exact .inl (ends_done afterPoll).2
      | cons first others =>
          obtain ⟨timestamp, timed, given, afterClock⟩ := ends_call afterPoll
          obtain rfl : timed = asked := given
          obtain ⟨answer, stored, appended, afterAppend⟩ := ends_call afterClock
          refine .inr ⟨first :: others, timestamp, answer, meets _ rfl, ?_⟩
          cases answer with
          | error reason =>
              obtain ⟨_, rfl⟩ := ends_done afterAppend
              exact appended
          | ok outcome =>
              obtain ⟨_, counted, given, last⟩ := ends_call afterAppend
              obtain rfl : counted = stored := given
              obtain ⟨_, rfl⟩ := ends_done last
              exact appended

theorem stored_step (holds : ∃ view, model.Shows broker.store view ∧ view.Valid) {request : StoreCall}
    (brings : ∀ record ∈ request.brings, record.validate = .ok ()) {answer : request.Answer}
    (answered : Answers (.store request) broker answer after) :
    ∃ view, model.Shows after.store view ∧ view.Valid := by
  obtain ⟨view, shows, valid⟩ := holds
  obtain ⟨later, answers, shows'⟩ := model.step shows answered.1
  exact ⟨later, shows', valid.step model.readBack_submitted brings answers⟩

/-- The engine brings valid records only. -/
theorem brings_issued {request : StoreCall} (issued : Issued request) :
    ∀ record ∈ request.brings, record.validate = .ok () := by
  cases request with
  | append topic partition records timestamp => exact validateAll_mem issued.2
  | createTopic config => exact List.forall_mem_nil _
  | topics => exact List.forall_mem_nil _
  | partitionCount topic => exact List.forall_mem_nil _
  | fetch topic partition start max => exact List.forall_mem_nil _
  | stats => exact List.forall_mem_nil _

theorem stored_engine {α : Type} {program : EngineProgram α} {result : α}
    (makes : program.Makes EngineCall.Issued) (ended : Ends Answers program broker result after)
    (holds : ∃ view, model.Shows broker.store view ∧ view.Valid) :
    ∃ view, model.Shows after.store view ∧ view.Valid := by
  refine ended.keeps (fun reached => ∃ view, model.Shows reached.store view ∧ view.Valid) makes ?_ holds
  intro request before answer later issued holds answered
  cases request with
  | store request => exact stored_step holds (brings_issued issued) answered
  | nextSlot =>
      obtain ⟨_, rfl⟩ := answered
      exact holds
  | tryAcquire count =>
      obtain rfl : later = before := answered
      exact holds
  | now =>
      obtain rfl : later = before := answered
      exact holds
  | publish event =>
      obtain ⟨_, rfl⟩ := answered
      exact holds

end Broker

/-- The states of a broker in which topics were created, batches produced and
fetched and sources polled, one call after the other and with any result. -/
inductive Fed (model : LogStoreModel) (engine : LogConfig) (met : List ProduceRecord → Prop) :
    Broker model → Prop where
  | opened : Fed model engine met (.new model)
  | created {broker after name partitions retention result} (earlier : Fed model engine met broker)
      (ended : Ends Broker.Answers (engine.createTopic name partitions retention) broker result after) :
      Fed model engine met after
  | produced {broker after topic batch result} (earlier : Fed model engine met broker)
      (ended : Ends Broker.Answers (produce topic batch) broker result after) : Fed model engine met after
  | fetched {broker after topic partition start max result} (earlier : Fed model engine met broker)
      (ended : Ends Broker.Answers (engine.fetch topic partition start max) broker result after) :
      Fed model engine met after
  | sourced {broker after runtime result} (earlier : Fed model engine met broker)
      (ended : Ends (Broker.SourceAnswers met) (SourceRuntime.runOnce runtime) broker result after) :
      Fed model engine met after

variable {engine : LogConfig} {broker : Broker model}

/-- What a source has to return for the log to stay valid: nothing checks it. -/
def AllValid (records : List ProduceRecord) : Prop := ∀ record ∈ records, record.validate = .ok ()

theorem Fed.stored (run : Fed model engine AllValid broker) :
    ∃ view, model.Shows broker.store view ∧ view.Valid := by
  induction run with
  | opened => exact ⟨.empty, model.fresh, nofun⟩
  | @created _ _ name partitions retention _ _ ended ih =>
      exact Broker.stored_engine (makes_createTopic EngineCall.Issued engine name partitions retention
        trivial (fun _ issued => issued) fun _ => trivial) ended ih
  | @produced _ _ topic batch _ _ ended ih =>
      exact Broker.stored_engine (makes_produce topic batch) ended ih
  | @fetched _ _ topic partition start max _ _ ended ih =>
      exact Broker.stored_engine (makes_fetch engine topic partition start max) ended ih
  | @sourced _ _ runtime _ _ ended ih =>
      rcases Broker.runOnce_ends ended with rfl | ⟨records, timestamp, answer, valid, answered⟩
      · exact ih
      · have brings : ∀ record ∈
            (StoreCall.append runtime.topic runtime.partition records timestamp).brings,
            record.validate = .ok () := valid
        exact Broker.stored_step ih brings answered

/-- When sources return valid records only, valid records are all that is
stored. -/
theorem stored_valid (run : Fed model engine AllValid broker) : broker.HoldsValid := by
  refine ⟨run.stored, ?_⟩
  intro topic partition start max result after answered
  obtain ⟨view, shows, valid⟩ := run.stored
  obtain ⟨later, ⟨_, refused | ⟨log, found, same⟩⟩, _⟩ := model.step shows answered
  · obtain ⟨_, impossible⟩ := refused
    cases impossible
  · cases same
    intro record member
    exact valid topic partition log found record (List.mem_of_mem_drop (List.mem_of_mem_take member))

/-- A source for the first partition of a topic of the memory store, which
returns one record. -/
theorem Fed.one (met : List ProduceRecord → Prop) (payload : Bytes) (meets : met [⟨none, payload⟩]) :
    ∃ broker, Fed memoryStore smallEngine met broker ∧
      broker.store = paired ⟨[⟨0, .epoch, none, payload⟩], 0, 1, 1, 1⟩ .default 1 ∧
      broker.roundRobin = 0 := by
  obtain ⟨broker, created, store, slot, _⟩ := @Broker.createTopic_runs memoryStore
    (.new memoryStore) (paired .default .default 0) .new smallEngine pairTopic [] rfl (by decide) rfl
    (by decide) rfl
  let stored := paired ⟨[⟨0, .epoch, none, payload⟩], 0, 1, 1, 1⟩ .default 1
  let outcome : AppendOutcome := ⟨[⟨0, .epoch, none, payload⟩], none⟩
  have appends : memoryStore.answers (.append pairTopic.name 0 [⟨none, payload⟩] .epoch) broker.store
      (.ok outcome) stored := by
    rw [store]
    rfl
  let runtime : SourceRuntime := ⟨⟨"source", by decide⟩, pairTopic.name, 0⟩
  have polled : ∀ records, (Except.ok [⟨none, payload⟩] : Except PortError (List ProduceRecord)) =
      .ok records → met records := by
    rintro _ ⟨⟩
    exact meets
  let batches := taken (.append pairTopic.name 0 [⟨none, payload⟩] .epoch) (.ok outcome)
  let after : Broker memoryStore :=
    { broker with store := stored, appended := broker.appended ++ batches }
  have stores : Broker.SourceAnswers met (.append pairTopic.name 0 [⟨none, payload⟩] .epoch) broker
      (.ok outcome) after := ⟨appends, rfl, rfl, rfl⟩
  have round : Ends (Broker.SourceAnswers met) runtime.runOnce broker (.ok 1) after := by
    refine .call ⟨polled, rfl⟩ ?_
    refine @Ends.call _ _ _ _ _ _ _ _ DateTime.epoch _ _ _ rfl ?_
    refine .call stores ?_
    exact @Ends.call _ _ _ _ _ _ _ _ () _ _ _ rfl .done
  exact ⟨after, .sourced (.created .opened created) round, rfl, slot⟩

theorem stored_empty :
    ∃ broker : Broker memoryStore, Fed memoryStore smallEngine (fun _ => True) broker ∧
      ¬ broker.HoldsValid := by
  obtain ⟨broker, run, store, _⟩ := Fed.one (fun _ => True) [] trivial
  refine ⟨broker, run, ?_⟩
  intro holds
  have fetched : memoryStore.answers (.fetch pairTopic.name 0 0 1) broker.store
      (.ok ⟨[⟨0, .epoch, none, []⟩], 1, 1⟩)
      { paired ⟨[⟨0, .epoch, none, []⟩], 0, 1, 1, 1⟩ .default 1 with fetchedTotal := 1 } := by
    rw [store]
    rfl
  cases holds.fetched fetched ⟨0, .epoch, none, []⟩ List.mem_cons_self

/-- A source's round and then a producer's call, which bring a record each to one
partition. -/
theorem stored_valid_both :
    ∃ broker : Broker memoryStore, Fed memoryStore smallEngine AllValid broker ∧
      broker.store = paired ⟨[plainRecord 0, plainRecord 1], 0, 2, 2, 1⟩ .default 2 ∧
      broker.HoldsValid := by
  have meets : AllValid plainBatch := by
    intro record member
    rw [List.mem_singleton.mp member]
    rfl
  obtain ⟨broker, run, store, slot⟩ := Fed.one AllValid [1] meets
  have counts : memoryStore.answers (.partitionCount pairTopic.name) broker.store (.ok (some 2))
      broker.store := by
    rw [store]
    rfl
  have target : broker.target plainBatch 2 = 0 := congrArg (· % 2) slot
  have appends : memoryStore.answers (.append pairTopic.name (broker.target plainBatch 2) plainBatch .epoch)
      broker.store (.ok ⟨[plainRecord 1], none⟩)
      (paired ⟨[plainRecord 0, plainRecord 1], 0, 2, 2, 1⟩ .default 2) := by
    rw [store, target]
    rfl
  obtain ⟨after, ended, stored, _⟩ := Broker.produce_runs (by decide) rfl counts appends
  have fed := run.produced ended
  exact ⟨after, fed, stored, stored_valid fed⟩

end ConnectForge
