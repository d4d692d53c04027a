import ConnectForge.Core.PartitionLog
import ConnectForge.Core.Sink
import ConnectForge.Interaction.Session

namespace ConnectForge

open Interaction

/-! The world around a sink runtime: the partition it reads, the stored
checkpoint, the sinks, and the runtime's own memory. -/

/-- What the sinks and the log have seen of a runtime. -/
inductive SinkEvent where
  /-- A fetch from `start`, made when the log began at `retained`. -/
  | fetched (start retained : Nat)
  | delivered (records : List Record) (result : Except PortError Unit)
  | deadLettered (record : DeadLetterRecord) (result : Except PortError Unit)
  | saved (offset : Nat) (result : Except PortError Unit)

def SinkEvent.Delivers (event : SinkEvent) (offset : Nat) : Prop :=
  ∃ records result, event = .delivered records result ∧ ∃ record ∈ records, record.offset = offset

structure SinkWorld where
  log : PartitionLog
  /-- The checkpoint in the checkpoint store. -/
  persisted : Option Nat
  cursor : Option Nat
  processed : Nat
  dead : Nat
  /-- Everything that has happened so far, latest first. -/
  trace : List SinkEvent

namespace SinkWorld

def checkpoint (world : SinkWorld) : Nat := world.persisted.getD Offset.zero

/-- A fresh runtime over a log and what the checkpoint store holds. -/
def fresh (log : PartitionLog) (persisted : Option Nat) : SinkWorld :=
  { log, persisted, cursor := none, processed := 0, dead := 0, trace := [] }

def record (world : SinkWorld) (event : SinkEvent) : SinkWorld :=
  { world with trace := event :: world.trace }

def deliveries (world : SinkWorld) : Nat :=
  world.trace.countP fun event => match event with
    | .delivered _ _ => true
    | _ => false

def restart (world : SinkWorld) : SinkWorld :=
  { world with cursor := none, processed := 0, dead := 0 }

/-- The world moving on its own: only the log changes. -/
structure Moves (world moved : SinkWorld) : Prop where
  log : world.log.Evolves moved.log
  rest : moved = { world with log := moved.log }

theorem Moves.refl (world : SinkWorld) : world.Moves world := ⟨.refl world.log, rfl⟩

theorem Moves.trans {first second third : SinkWorld} (left : first.Moves second)
    (right : second.Moves third) : first.Moves third :=
  ⟨left.log.trans right.log, by rw [right.rest, left.rest]⟩

end SinkWorld

def Handled (trace : List SinkEvent) (offset : Nat) : Prop :=
  (∃ records, .delivered records (.ok ()) ∈ trace ∧ ∃ record ∈ records, record.offset = offset) ∨
  (∃ letter, .deadLettered letter (.ok ()) ∈ trace ∧ letter.offset = offset)

/-- A fetch from this offset or an earlier one found it pruned. -/
def Skipped (trace : List SinkEvent) (offset : Nat) : Prop :=
  ∃ start retained, .fetched start retained ∈ trace ∧ start ≤ offset ∧ offset < retained

theorem Handled.later {trace : List SinkEvent} {offset : Nat} (handled : Handled trace offset)
    (event : SinkEvent) : Handled (event :: trace) offset := by
  rcases handled with ⟨records, member, found⟩ | ⟨letter, member, same⟩
  · exact .inl ⟨records, List.mem_cons_of_mem _ member, found⟩
  · exact .inr ⟨letter, List.mem_cons_of_mem _ member, same⟩

theorem Skipped.later {trace : List SinkEvent} {offset : Nat} (skipped : Skipped trace offset)
    (event : SinkEvent) : Skipped (event :: trace) offset := by
  obtain ⟨start, retained, member, bounds⟩ := skipped
  exact ⟨start, retained, List.mem_cons_of_mem _ member, bounds⟩

namespace SinkRuntime

def Owns (runtime : SinkRuntime) (connector : ConnectorId) (topic : TopicName) (partition : Nat) :
    Prop :=
  connector = runtime.id ∧ topic = runtime.topic ∧ partition = runtime.partition

instance (runtime : SinkRuntime) (connector : ConnectorId) (topic : TopicName) (partition : Nat) :
    Decidable (runtime.Owns connector topic partition) :=
  inferInstanceAs (Decidable (_ ∧ _ ∧ _))

@[simp] theorem owns_own (runtime : SinkRuntime) :
    runtime.Owns runtime.id runtime.topic runtime.partition := ⟨rfl, rfl, rfl⟩

end SinkRuntime

def SinkWorld.saved (runtime : SinkRuntime) (checkpoint : Checkpoint) (world : SinkWorld) :
    SinkWorld :=
  if runtime.Owns checkpoint.connector checkpoint.topic checkpoint.partition then
    { world with persisted := some checkpoint.offset }
  else world

/-- The answers a runtime can get, and what becomes of the world.  Any call to
a port may fail; a failed save may have stored its value. -/
def Answered (runtime : SinkRuntime) :
    (request : SinkCall) → SinkWorld → request.Answer → SinkWorld → Prop
  | .readCursor, world, answer, after => answer = world.cursor ∧ after = world
  | .writeCursor offset, world, _, after => after = { world with cursor := some offset }
  | .load connector topic partition, world, answer, after =>
      after = world ∧ ((∃ reason, answer = .error reason) ∨
        (runtime.Owns connector topic partition → answer = .ok world.persisted))
  | .save checkpoint, world, answer, after =>
      after = (world.saved runtime checkpoint).record (.saved checkpoint.offset answer) ∨
      (∃ reason, answer = .error reason ∧
        after = world.record (.saved checkpoint.offset answer))
  | .fetch topic partition start max, world, answer, after =>
      (∃ reason, answer = .error reason ∧ after = world) ∨
      (after = world.record (.fetched start world.log.start) ∧
        (topic = runtime.topic → partition = runtime.partition →
          answer = .ok (world.log.fetch start max)))
  | .deliver records, world, answer, after => after = world.record (.delivered records answer)
  | .deadLetter record, world, answer, after => after = world.record (.deadLettered record answer)
  | .now, world, _, after => after = world
  | .addProcessed, world, _, after => after = { world with processed := world.processed + 1 }
  | .addDead, world, _, after => after = { world with dead := world.dead + 1 }
  | .readProcessed, world, answer, after => answer = world.processed ∧ after = world
  | .readDead, world, answer, after => answer = world.dead ∧ after = world

/-- A world in which only deliveries fail: `sink` answers them in turn. -/
def reliable (runtime : SinkRuntime) (sink : Nat → Except PortError Unit) (time : DateTime) :
    (request : SinkCall) → SinkWorld → request.Answer × SinkWorld
  | .readCursor, world => (world.cursor, world)
  | .writeCursor offset, world => ((), { world with cursor := some offset })
  | .load _ _ _, world => (.ok world.persisted, world)
  | .save checkpoint, world =>
      (.ok (), (world.saved runtime checkpoint).record (.saved checkpoint.offset (.ok ())))
  | .fetch _ _ start max, world =>
      (.ok (world.log.fetch start max), world.record (.fetched start world.log.start))
  | .deliver records, world =>
      (sink world.deliveries, world.record (.delivered records (sink world.deliveries)))
  | .deadLetter letter, world => (.ok (), world.record (.deadLettered letter (.ok ())))
  | .now, world => (time, world)
  | .addProcessed, world => ((), { world with processed := world.processed + 1 })
  | .addDead, world => ((), { world with dead := world.dead + 1 })
  | .readProcessed, world => (world.processed, world)
  | .readDead, world => (world.dead, world)

theorem reliable_answered (runtime : SinkRuntime) (sink : Nat → Except PortError Unit)
    (time : DateTime) (request : SinkCall) (world : SinkWorld) :
    Answered runtime request world (reliable runtime sink time request world).1
      (reliable runtime sink time request world).2 := by
  cases request with
  | readCursor => exact ⟨rfl, rfl⟩
  | writeCursor offset => exact rfl
  | load connector topic partition => exact ⟨rfl, .inr fun _ => rfl⟩
  | save checkpoint => exact .inl rfl
  | fetch topic partition start max => exact .inr ⟨rfl, fun _ _ => rfl⟩
  | deliver records => exact rfl
  | deadLetter letter => exact rfl
  | now => exact rfl
  | addProcessed => exact rfl
  | addDead => exact rfl
  | readProcessed => exact ⟨rfl, rfl⟩
  | readDead => exact ⟨rfl, rfl⟩

/-- What has to be shown for the delivery loop to be safe: `pending` holds
before the given records are handled, and `stuck` when a dead letter could not
be stored. -/
structure DeliveryLoop (rely guarantee : SinkWorld → SinkWorld → Prop)
    (pending : List Record → SinkWorld → Prop) (stuck : SinkWorld → Prop) : Prop where
  stable : ∀ {records world moved}, rely world moved → pending records world → pending records moved
  stuckStable : ∀ {world moved}, rely world moved → stuck world → stuck moved
  idle : ∀ {records world}, pending records world → guarantee world world
  counted : ∀ {records world} (processed dead : Nat), pending records world →
    guarantee world { world with processed, dead } ∧ pending records { world with processed, dead }
  failed : ∀ {record rest world reason}, pending (record :: rest) world →
    guarantee world (world.record (.delivered [record] (.error reason))) ∧
      pending (record :: rest) (world.record (.delivered [record] (.error reason)))
  delivered : ∀ {record rest world}, pending (record :: rest) world →
    guarantee world (world.record (.delivered [record] (.ok ()))) ∧
      pending rest (world.record (.delivered [record] (.ok ())))
  lost : ∀ {record rest world letter reason}, pending (record :: rest) world →
    letter.offset = record.offset →
      guarantee world (world.record (.deadLettered letter (.error reason))) ∧
        stuck (world.record (.deadLettered letter (.error reason)))
  deadLettered : ∀ {record rest world letter}, pending (record :: rest) world →
    letter.offset = record.offset →
      guarantee world (world.record (.deadLettered letter (.ok ()))) ∧
        pending rest (world.record (.deadLettered letter (.ok ())))

/-- What has to be shown for a commit to be safe: `stored` holds between the
save and the write of the cursor, and `failed` when the save reported an
error. -/
structure CommitStep (rely guarantee : SinkWorld → SinkWorld → Prop) (offset : Nat)
    (ready stored committed failed : SinkWorld → Prop) : Prop where
  readyStable : ∀ {world moved}, rely world moved → ready world → ready moved
  storedStable : ∀ {world moved}, rely world moved → stored world → stored moved
  committedStable : ∀ {world moved}, rely world moved → committed world → committed moved
  failedStable : ∀ {world moved}, rely world moved → failed world → failed moved
  save : ∀ {world}, ready world →
    let after := SinkWorld.record { world with persisted := some offset } (.saved offset (.ok ()))
    guarantee world after ∧ stored after
  unsure : ∀ {world} (reason : PortError), ready world →
    let after := SinkWorld.record { world with persisted := some offset }
      (.saved offset (.error reason))
    guarantee world after ∧ failed after
  lose : ∀ {world} (reason : PortError), ready world →
    guarantee world (world.record (.saved offset (.error reason))) ∧
      failed (world.record (.saved offset (.error reason)))
  write : ∀ {world}, stored world →
    guarantee world { world with cursor := some offset } ∧
      committed { world with cursor := some offset }

/-- What has to be shown for the checkpoint to be resolved safely. -/
structure ResolveStep (guarantee : SinkWorld → SinkWorld → Prop) (invariant : SinkWorld → Prop) :
    Prop where
  stable : ∀ {world moved : SinkWorld}, world.Moves moved → invariant world → invariant moved
  idle : ∀ {world}, invariant world → guarantee world world
  settle : ∀ {world}, invariant world →
    guarantee world { world with cursor := some world.checkpoint } ∧
      invariant { world with cursor := some world.checkpoint }

section Programs

variable {runtime : SinkRuntime}
  {answers : (request : SinkCall) → SinkWorld → request.Answer → SinkWorld → Prop}
  {rely guarantee : SinkWorld → SinkWorld → Prop} {pending : List Record → SinkWorld → Prop}
  {stuck : SinkWorld → Prop}

theorem DeliveryLoop.safe_deliverOne (loop : DeliveryLoop rely guarantee pending stuck)
    (answered : ∀ {request world answer after}, answers request world answer after →
      Answered runtime request world answer after)
    (reflexive : ∀ world, rely world world) {record : Record} {rest : List Record}
    {world : SinkWorld} (ready : pending (record :: rest) world) :
    Safe answers rely guarantee
      (fun result world => match result with
        | .ok _ => pending rest world
        | .error _ => pending (record :: rest) world)
      (runtime.deliverOne record) world := by
  have attempts : Safe answers rely guarantee
      (fun (result : Except PortError Unit) world => match result with
        | .ok _ => pending rest world
        | .error _ => pending (record :: rest) world)
      (retryIf (Nat.max runtime.config.maxAttempts 1) (deliverRecords [record]) PortError.isRetryable)
      world := by
    apply safe_retryIf reflexive _ _ _ ready
    · intro world ready
      apply Safe.call
      intro moved moves answer after given
      have effect : after = moved.record (.delivered [record] answer) := answered given
      subst effect
      cases answer with
      | ok value =>
          obtain ⟨kept, next⟩ := loop.delivered (loop.stable moves ready)
          refine ⟨kept, Safe.done fun later more => ⟨loop.stable more next, ?_⟩⟩
          intro reason impossible
          cases impossible
      | error reason =>
          obtain ⟨kept, next⟩ := loop.failed (loop.stable moves ready)
          exact ⟨kept, Safe.done fun later more =>
            ⟨loop.stable more next, fun _ _ => loop.stable more next⟩⟩
    · intro result world moved holds moves
      cases result with
      | ok value => exact loop.stable moves holds
      | error reason => exact loop.stable moves holds
  refine Safe.bind reflexive attempts ?_
  intro result world holds
  cases result with
  | ok value => exact Safe.done fun moved moves => loop.stable moves holds
  | error reason => exact Safe.done fun moved moves => loop.stable moves holds

theorem DeliveryLoop.safe_deadLetter (loop : DeliveryLoop rely guarantee pending stuck)
    (answered : ∀ {request world answer after}, answers request world answer after →
      Answered runtime request world answer after)
    {record : Record} {rest : List Record} (reason : String)
    {world : SinkWorld} (ready : pending (record :: rest) world) :
    Safe answers rely guarantee
      (fun result world => match result with
        | .ok _ => pending rest world
        | .error _ => stuck world)
      (runtime.deadLetter record reason) world := by
  apply Safe.call
  intro moved moves failedAt after given
  have same : after = moved := answered given
  subst same
  refine ⟨loop.idle (loop.stable moves ready), ?_⟩
  apply Safe.call
  intro later more answer final given
  obtain ⟨letter, effect, offset⟩ : ∃ letter : DeadLetterRecord,
      final = later.record (.deadLettered letter answer) ∧ letter.offset = record.offset :=
    ⟨_, answered given, rfl⟩
  subst effect
  have here := loop.stable more (loop.stable moves ready)
  cases answer with
  | ok value =>
      obtain ⟨kept, next⟩ := loop.deadLettered here offset
      exact ⟨kept, Safe.done fun world moves => loop.stable moves next⟩
  | error reason =>
      obtain ⟨kept, next⟩ := loop.lost here offset
      exact ⟨kept, Safe.done fun world moves => loop.stuckStable moves next⟩

/-- The loop over a batch handles all of it or gets stuck at a dead letter. -/
theorem DeliveryLoop.safe_deliverAll (loop : DeliveryLoop rely guarantee pending stuck)
    (answered : ∀ {request world answer after}, answers request world answer after →
      Answered runtime request world answer after)
    (reflexive : ∀ world, rely world world) (records : List Record) (delivered dead : Nat)
    {world : SinkWorld} (ready : pending records world) :
    Safe answers rely guarantee
      (fun result world => match result with
        | .ok _ => pending [] world
        | .error _ => stuck world)
      (runtime.deliverAll records delivered dead) world := by
  induction records generalizing delivered dead world with
  | nil => exact Safe.done fun moved moves => loop.stable moves ready
  | cons record rest ih =>
      refine Safe.bind reflexive (loop.safe_deliverOne answered reflexive ready) ?_
      intro result world holds
      cases result with
      | ok value =>
          apply Safe.call
          intro moved moves answer after given
          have effect : after = { moved with processed := moved.processed + 1 } := answered given
          subst effect
          obtain ⟨kept, next⟩ := loop.counted (moved.processed + 1) moved.dead (loop.stable moves holds)
          exact ⟨kept, ih (delivered + 1) dead next⟩
      | error reason =>
          refine Safe.bind reflexive (loop.safe_deadLetter answered reason holds) ?_
          intro result world holds
          cases result with
          | error reason => exact Safe.done fun moved moves => loop.stuckStable moves holds
          | ok value =>
              apply Safe.call
              intro moved moves answer after given
              have effect : after = { moved with dead := moved.dead + 1 } := answered given
              subst effect
              obtain ⟨kept, next⟩ :=
                loop.counted moved.processed (moved.dead + 1) (loop.stable moves holds)
              exact ⟨kept, ih delivered (dead + 1) next⟩

theorem CommitStep.safe_commitCheckpoint {offset : Nat}
    {ready stored committed failed : SinkWorld → Prop}
    (step : CommitStep rely guarantee offset ready stored committed failed)
    (answered : ∀ {request world answer after}, answers request world answer after →
      Answered runtime request world answer after)
    {world : SinkWorld} (start : ready world) :
    Safe answers rely guarantee
      (fun result world => match result with
        | .ok _ => committed world
        | .error _ => failed world)
      (runtime.commitCheckpoint offset) world := by
  apply Safe.call
  intro moved moves answer after given
  have here := step.readyStable moves start
  have effect : after = SinkWorld.record { moved with persisted := some offset } (.saved offset answer) ∨
      (∃ reason, answer = .error reason ∧ after = moved.record (.saved offset answer)) := by
    have effect := answered given
    simpa only [Answered, SinkWorld.saved, SinkRuntime.owns_own, ↓reduceIte] using effect
  cases answer with
  | error reason =>
      rcases effect with rfl | ⟨_, _, rfl⟩
      · obtain ⟨kept, lost⟩ := step.unsure reason here
        exact ⟨kept, Safe.done fun later more => step.failedStable more lost⟩
      · obtain ⟨kept, lost⟩ := step.lose reason here
        exact ⟨kept, Safe.done fun later more => step.failedStable more lost⟩
  | ok value =>
      rcases effect with rfl | ⟨reason, impossible, _⟩
      · obtain ⟨kept, durable⟩ := step.save here
        refine ⟨kept, Safe.call ?_⟩
        intro later more written final given
        have effect : final = { later with cursor := some offset } := answered given
        subst effect
        obtain ⟨kept, done⟩ := step.write (step.storedStable more durable)
        exact ⟨kept, Safe.done fun final last => step.committedStable last done⟩
      · cases impossible

theorem ResolveStep.safe_resolveCheckpoint {invariant : SinkWorld → Prop}
    (step : ResolveStep guarantee invariant)
    {world : SinkWorld} (holds : invariant world) :
    Safe (Answered runtime) SinkWorld.Moves guarantee
      (fun result world => invariant world ∧
        ∀ start, result = .ok start → world.cursor = some start)
      runtime.resolveCheckpoint world := by
  have settled : ∀ {world : SinkWorld} {start : Nat}, invariant world → world.cursor = some start →
      Safe (Answered runtime) SinkWorld.Moves guarantee
        (fun result world => invariant world ∧
          ∀ start, result = .ok start → world.cursor = some start)
        (.done (.ok start) : SinkProgram (Except CoreError Nat)) world := by
    intro world start holds here
    apply Safe.done
    intro moved moves
    refine ⟨step.stable moves holds, ?_⟩
    intro other same
    cases same
    rw [moves.rest]
    exact here
  apply Safe.call
  intro before moves answer moved given
  obtain ⟨rfl, rfl⟩ := given
  replace holds := step.stable moves holds
  refine ⟨step.idle holds, ?_⟩
  cases cached : moved.cursor with
  | some cursor => exact settled holds cached
  | none =>
      apply Safe.call
      intro before moves answer moved given
      obtain ⟨rfl, loaded⟩ := given
      replace holds := step.stable moves holds
      refine ⟨step.idle holds, ?_⟩
      cases answer with
      | error reason =>
          apply Safe.done
          intro moved moves
          refine ⟨step.stable moves holds, ?_⟩
          intro start same
          cases same
      | ok found =>
          have same : found = moved.persisted := by
            rcases loaded with ⟨reason, impossible⟩ | found
            · cases impossible
            · exact Except.ok.inj (found ⟨rfl, rfl, rfl⟩)
          subst same
          apply Safe.call
          intro later moves written after given
          have position : moved.persisted.getD Offset.zero = later.checkpoint := by
            rw [moves.rest]
            rfl
          have effect : after = { later with cursor := some later.checkpoint } := by
            rw [← position]
            exact given
          subst effect
          obtain ⟨kept, holds⟩ := step.settle (step.stable moves holds)
          refine ⟨kept, ?_⟩
          rw [position]
          exact settled holds rfl

theorem answered_fetch {start max : Nat} {world after : SinkWorld}
    {answer : Except PortError FetchResult}
    (given : Answered runtime (.fetch runtime.topic runtime.partition start max) world answer after) :
    (∃ reason, answer = .error reason ∧ after = world) ∨
    (answer = .ok (world.log.fetch start max) ∧
      after = world.record (.fetched start world.log.start)) := by
  rcases given with failed | ⟨recorded, fetched⟩
  · exact .inl failed
  · exact .inr ⟨fetched rfl rfl, recorded⟩

/-- A round is safe if what it does with a batch is. -/
theorem ResolveStep.safe_runOnce {invariant : SinkWorld → Prop}
    (step : ResolveStep guarantee invariant)
    (fetched : ∀ {world start}, invariant world →
      guarantee world (world.record (.fetched start world.log.start)) ∧
        invariant (world.record (.fetched start world.log.start)))
    (process : ∀ {world start}, invariant world → world.cursor = some start →
      world.log.slice start runtime.config.batchSize ≠ [] →
      Safe (Answered runtime) SinkWorld.Moves guarantee (fun _ world => invariant world)
        (runtime.processBatch start (world.log.slice start runtime.config.batchSize))
        (world.record (.fetched start world.log.start)))
    {world : SinkWorld} (holds : invariant world) :
    Safe (Answered runtime) SinkWorld.Moves guarantee (fun _ world => invariant world)
      runtime.runOnce world := by
  refine Safe.bind SinkWorld.Moves.refl (step.safe_resolveCheckpoint holds) ?_
  rintro result world ⟨holds, positioned⟩
  cases result with
  | error reason => exact Safe.done fun moved moves => step.stable moves holds
  | ok start =>
      apply Safe.call
      intro moved moves answer after given
      have here := step.stable moves holds
      rcases answered_fetch given with ⟨reason, rfl, rfl⟩ | ⟨rfl, rfl⟩
      · exact ⟨step.idle here, Safe.done fun later more => step.stable more here⟩
      · obtain ⟨kept, recorded⟩ := fetched here
        refine ⟨kept, ?_⟩
        change Safe _ _ _ _
          (runtime.processBatch start (moved.log.slice start runtime.config.batchSize)) _
        by_cases empty : moved.log.slice start runtime.config.batchSize = []
        · rw [empty]
          exact Safe.done fun later more => step.stable more recorded
        · have positionedHere : moved.cursor = some start := by
            rw [moves.rest]
            exact positioned start rfl
          exact process here positionedHere empty

end Programs

theorem valid_sink : checkName maxConnectorIdLen "sink" = .ok () := by decide

/-- A connector made for tests. -/
def plainSink (config : SinkConfig) : SinkRuntime where
  id := ⟨"sink", valid_sink⟩
  topic := ⟨"events", valid_events⟩
  partition := 0
  config

end ConnectForge
