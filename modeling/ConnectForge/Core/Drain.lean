import ConnectForge.Core.SinkWorld

namespace ConnectForge

open Interaction

/-! Draining a partition: rounds until one polls nothing, in a world where only
deliveries can fail, with restarts in between. -/

def SinkEvent.outcomes : SinkEvent → List Nat
  | .delivered records (.ok ()) => records.map Record.offset
  | .deadLettered letter _ => [letter.offset]
  | _ => []

def SinkWorld.outcomes (world : SinkWorld) : List Nat :=
  world.trace.reverse.flatMap SinkEvent.outcomes

/-- What delivering some records does to the world: some of them are settled,
and only they are passed to the sink. -/
structure Settles (records : List Record) (settled : List Nat) (world after : SinkWorld) : Prop where
  log : after.log = world.log
  persisted : after.persisted = world.persisted
  cursor : after.cursor = world.cursor
  outcomes : after.outcomes = world.outcomes ++ settled
  passed : ∀ event ∈ after.trace, ∀ offset, event.Delivers offset →
    event ∈ world.trace ∨ ∃ record ∈ records, record.offset = offset

namespace Settles

variable {records more : List Record} {settled further : List Nat} {first second third : SinkWorld}

theorem refl (records : List Record) (world : SinkWorld) : Settles records [] world world :=
  ⟨rfl, rfl, rfl, (List.append_nil _).symm, fun _ member _ _ => .inl member⟩

theorem trans (left : Settles records settled first second)
    (right : Settles more further second third) :
    Settles (records ++ more) (settled ++ further) first third := by
  refine ⟨right.log.trans left.log, right.persisted.trans left.persisted,
    right.cursor.trans left.cursor, ?_, ?_⟩
  · rw [right.outcomes, left.outcomes, List.append_assoc]
  · intro event member offset delivers
    rcases right.passed event member offset delivers with earlier | ⟨record, found, same⟩
    · rcases left.passed event earlier offset delivers with before | ⟨record, found, same⟩
      · exact .inl before
      · exact .inr ⟨record, List.mem_append_left _ found, same⟩
    · exact .inr ⟨record, List.mem_append_right _ found, same⟩

theorem widen (settles : Settles records settled first second)
    (subset : ∀ record ∈ records, record ∈ more) : Settles more settled first second := by
  refine ⟨settles.log, settles.persisted, settles.cursor, settles.outcomes, ?_⟩
  intro event member offset delivers
  rcases settles.passed event member offset delivers with before | ⟨record, found, same⟩
  · exact .inl before
  · exact .inr ⟨record, subset record found, same⟩

theorem recorded (world : SinkWorld) {event : SinkEvent}
    (passed : ∀ offset, event.Delivers offset → ∃ record ∈ records, record.offset = offset) :
    Settles records event.outcomes world (world.record event) := by
  refine ⟨rfl, rfl, rfl, ?_, ?_⟩
  · simp [SinkWorld.outcomes, SinkWorld.record]
  · intro other member offset delivers
    rcases List.mem_cons.mp member with rfl | earlier
    · exact .inr (passed offset delivers)
    · exact .inl earlier

end Settles

theorem delivers_delivered {record : Record} {result : Except PortError Unit} {offset : Nat}
    (delivers : (SinkEvent.delivered [record] result).Delivers offset) :
    ∃ other ∈ [record], other.offset = offset := by
  obtain ⟨_, _, same, found⟩ := delivers
  cases same
  exact found

section Reliable

variable (runtime : SinkRuntime) (sink : Nat → Except PortError Unit) (time : DateTime)

def settledBy {ε α : Type} (record : Record) : Except ε α → List Nat
  | .ok _ => [record.offset]
  | .error _ => []

theorem settles_attempt (record : Record) (result : Except PortError Unit) (world : SinkWorld) :
    Settles [record] (settledBy record result) world (world.record (.delivered [record] result)) := by
  have same : settledBy record result = (SinkEvent.delivered [record] result).outcomes := by
    cases result <;> rfl
  rw [same]
  exact .recorded world fun _ => delivers_delivered

theorem settles_retryLoop (record : Record) (remaining : Nat) (world : SinkWorld) :
    let run := (retryLoop (deliverRecords [record]) PortError.isRetryable remaining).run
      (reliable runtime sink time) world
    Settles [record] (settledBy record run.1) world run.2 := by
  induction remaining generalizing world with
  | zero => exact settles_attempt record (sink world.deliveries) world
  | succ remaining ih =>
      have first := settles_attempt record (sink world.deliveries) world
      simp only [retryLoop, deliverRecords, Program.ask_bind, run_call, reliable]
      cases answer : sink world.deliveries with
      | ok value =>
          rw [answer] at first
          exact first
      | error reason =>
          rw [answer] at first
          dsimp only
          split
          · exact (first.trans (ih _)).widen (by simp)
          · exact first

theorem settles_deliverOne (record : Record) (world : SinkWorld) :
    let run := (runtime.deliverOne record).run (reliable runtime sink time) world
    Settles [record] (settledBy record run.1) world run.2 := by
  have attempts := settles_retryLoop runtime sink time record
    (Nat.max runtime.config.maxAttempts 1 - 1) world
  simp only [SinkRuntime.deliverOne, retryIf, run_bind] at attempts ⊢
  generalize (retryLoop (deliverRecords [record]) PortError.isRetryable
    (Nat.max runtime.config.maxAttempts 1 - 1)).run (reliable runtime sink time) world = run at attempts ⊢
  obtain ⟨result, after⟩ := run
  cases result <;> exact attempts

/-- The loop over a batch settles every record of it, in order. -/
theorem settles_deliverAll (records : List Record) (delivered dead : Nat) (world : SinkWorld) :
    ∃ delivered' dead' after,
      (runtime.deliverAll records delivered dead).run (reliable runtime sink time) world =
        (.ok (delivered', dead'), after) ∧
      delivered' + dead' = delivered + dead + records.length ∧
      Settles records (records.map Record.offset) world after := by
  induction records generalizing delivered dead world with
  | nil => exact ⟨delivered, dead, world, rfl, rfl, .refl [] world⟩
  | cons record rest ih =>
      have one := settles_deliverOne runtime sink time record world
      simp only [SinkRuntime.deliverAll, run_bind] at one ⊢
      generalize (runtime.deliverOne record).run (reliable runtime sink time) world = run at one ⊢
      obtain ⟨result, after⟩ := run
      cases result with
      | ok value =>
          obtain ⟨delivered', dead', final, ran, total, settles⟩ :=
            ih (delivered + 1) dead { after with processed := after.processed + 1 }
          refine ⟨delivered', dead', final, ran, ?_, ?_⟩
          · rw [total, List.length_cons]
            omega
          · exact one.trans ⟨settles.log, settles.persisted, settles.cursor, settles.outcomes,
              settles.passed⟩
      | error reason =>
          obtain ⟨letter, offset, stored⟩ : ∃ letter : DeadLetterRecord,
              letter.offset = record.offset ∧
              (runtime.deadLetter record reason).run (reliable runtime sink time) after =
                (.ok (), after.record (.deadLettered letter (.ok ()))) := ⟨_, rfl, rfl⟩
          have lettered : Settles [record] (SinkEvent.deadLettered letter (.ok ())).outcomes after
              (after.record (.deadLettered letter (.ok ()))) := by
            refine .recorded after ?_
            rintro _ ⟨_, _, impossible, _⟩
            cases impossible
          have settled : Settles [record] ([] ++ [letter.offset]) world
              (after.record (.deadLettered letter (.ok ()))) :=
            (one.trans lettered).widen (by simp)
          rw [offset, List.nil_append] at settled
          obtain ⟨delivered', dead', final, ran, total, settles⟩ := ih delivered (dead + 1)
            { after.record (.deadLettered letter (.ok ())) with dead := after.dead + 1 }
          refine ⟨delivered', dead', final, ?_, ?_, ?_⟩
          · simp only [run_bind, stored]
            exact ran
          · rw [total, List.length_cons]
            omega
          · exact settled.trans ⟨settles.log, settles.persisted, settles.cursor, settles.outcomes,
              settles.passed⟩

/-- Between two rounds the runtime knows its checkpoint or will load it. -/
structure Ready (log : PartitionLog) (position : Nat) (world : SinkWorld) : Prop where
  log : world.log = log
  checkpoint : world.checkpoint = position
  cursor : world.cursor = none ∨ world.cursor = some position

theorem run_resolveCheckpoint {log : PartitionLog} {position : Nat} {world : SinkWorld}
    (ready : Ready log position world) :
    runtime.resolveCheckpoint.run (reliable runtime sink time) world =
      (.ok position, { world with cursor := some position }) := by
  obtain ⟨_, checkpoint, cursor⟩ := ready
  obtain ⟨log, persisted, cursor, processed, dead, trace⟩ := world
  rcases cursor with none | cached
  · cases none
    cases checkpoint
    rfl
  · cases cached
    rfl

def SinkWorld.committed (world : SinkWorld) (offset : Nat) : SinkWorld :=
  { world with
    persisted := some offset
    cursor := some offset
    trace := .saved offset (.ok ()) :: world.trace }

theorem run_commitCheckpoint (offset : Nat) (world : SinkWorld) :
    (runtime.commitCheckpoint offset).run (reliable runtime sink time) world =
      (.ok (), world.committed offset) := by
  simp [SinkRuntime.commitCheckpoint, reliable, SinkWorld.saved, SinkWorld.record,
    SinkWorld.committed]

theorem outcomes_committed (world : SinkWorld) (offset : Nat) :
    (world.committed offset).outcomes = world.outcomes := by
  simp [SinkWorld.outcomes, SinkWorld.committed, SinkEvent.outcomes]

theorem committed_passed {world : SinkWorld} {position offset : Nat} {event : SinkEvent}
    (member : event ∈ (world.committed position).trace) (delivers : event.Delivers offset) :
    event ∈ world.trace := by
  rcases List.mem_cons.mp member with rfl | earlier
  · obtain ⟨_, _, impossible, _⟩ := delivers
    cases impossible
  · exact earlier

structure Rounded (log : PartitionLog) (first count : Nat) (world after : SinkWorld) : Prop where
  log : after.log = log
  persisted : after.persisted = some (first + count)
  cursor : after.cursor = some (first + count)
  outcomes : after.outcomes = world.outcomes ++ List.range' first count
  passed : ∀ event ∈ after.trace, ∀ offset, event.Delivers offset →
    event ∈ world.trace ∨ (first ≤ offset ∧ offset < first + count)

/-- A batch is settled as a whole, whichever side of it is committed first. -/
theorem run_processBatch {first : Nat} {batch : List Record} (numbered : Numbered first batch)
    (nonempty : batch ≠ []) (start : Nat) (world : SinkWorld) :
    ∃ report after,
      (runtime.processBatch start batch).run (reliable runtime sink time) world =
        (.ok report, after) ∧
      report.polled = batch.length ∧ report.delivered + report.deadLettered = report.polled ∧
      Rounded world.log first batch.length world after := by
  have filled : batch.isEmpty = false := by simpa using nonempty
  have inBatch : ∀ offset, (∃ record ∈ batch, record.offset = offset) →
      first ≤ offset ∧ offset < first + batch.length := by
    rintro offset ⟨record, member, rfl⟩
    exact numbered.bounds member
  cases guarantee : runtime.config.guarantee with
  | atMostOnce =>
      have other : runtime.config.guarantee ≠ .atLeastOnce := by rw [guarantee]; decide
      obtain ⟨delivered, dead, after, ran, total, settles⟩ := settles_deliverAll runtime sink time
        batch 0 0 (world.committed (first + batch.length))
      refine ⟨{
        polled := batch.length
        delivered
        deadLettered := dead
        checkpoint := first + batch.length }, after, ?_, rfl, by simpa using total, ?_⟩
      · simp only [SinkRuntime.processBatch, filled, Bool.false_eq_true, ↓reduceIte,
          numbered.nextAfter nonempty, runtime.commitUnder_other other,
          runtime.commitUnder_same guarantee, Program.done_bind, run_bind, run_commitCheckpoint, ran]
        rfl
      · refine ⟨settles.log, settles.persisted, settles.cursor, ?_, ?_⟩
        · rw [settles.outcomes, outcomes_committed, numbered]
        · intro event member offset delivers
          rcases settles.passed event member offset delivers with earlier | found
          · exact .inl (committed_passed earlier delivers)
          · exact .inr (inBatch offset found)
  | atLeastOnce =>
      have other : runtime.config.guarantee ≠ .atMostOnce := by rw [guarantee]; decide
      obtain ⟨delivered, dead, after, ran, total, settles⟩ := settles_deliverAll runtime sink time
        batch 0 0 world
      refine ⟨{
        polled := batch.length
        delivered
        deadLettered := dead
        checkpoint := first + batch.length }, after.committed (first + batch.length), ?_, rfl,
          by simpa using total, ?_⟩
      · simp only [SinkRuntime.processBatch, filled, Bool.false_eq_true, ↓reduceIte,
          numbered.nextAfter nonempty, runtime.commitUnder_other other,
          runtime.commitUnder_same guarantee, Program.done_bind, run_bind, run_commitCheckpoint, ran]
        rfl
      · refine ⟨settles.log, rfl, rfl, ?_, ?_⟩
        · rw [outcomes_committed, settles.outcomes, numbered]
        · intro event member offset delivers
          rcases settles.passed event (committed_passed member delivers) offset delivers with
            earlier | found
          · exact .inl earlier
          · exact .inr (inBatch offset found)

theorem run_runOnce {log : PartitionLog} {position : Nat} {world : SinkWorld}
    (ready : Ready log position world) :
    runtime.runOnce.run (reliable runtime sink time) world =
      (runtime.processBatch position (log.slice position runtime.config.batchSize)).run
        (reliable runtime sink time)
        (SinkWorld.record { world with cursor := some position } (.fetched position log.start)) := by
  simp only [SinkRuntime.runOnce, run_bind, run_resolveCheckpoint runtime sink time ready]
  obtain ⟨rfl, _, _⟩ := ready
  rfl

theorem Ready.restart {log : PartitionLog} {position : Nat} {world : SinkWorld}
    (ready : Ready log position world) : Ready log position world.restart :=
  ⟨ready.log, ready.checkpoint, .inl rfl⟩

/-- Rounds until one polls nothing, as the callers of `run_once` make them.
`restarts` says before which rounds the runtime is dropped and rebuilt; there is
no result if a round fails or the given number of them is not enough. -/
def drain (restarts : Nat → Bool) :
    Nat → Nat → SinkWorld → Option (List DeliveryReport × SinkWorld)
  | 0, _, _ => none
  | rounds + 1, index, world =>
      match runtime.runOnce.run (reliable runtime sink time)
          (if restarts index then world.restart else world) with
      | (.error _, _) => none
      | (.ok report, after) =>
          if report.polled = 0 then some ([report], after)
          else (drain restarts rounds (index + 1) after).map fun rest => (report :: rest.1, rest.2)

/-- The offsets from `first` on are settled, and nothing else happened. -/
structure Drained (log : PartitionLog) (first : Nat) (world : SinkWorld)
    (reports : List DeliveryReport) (after : SinkWorld) : Prop where
  outcomes : after.outcomes = world.outcomes ++ List.range' first (log.next - first)
  passed : ∀ event ∈ after.trace, ∀ offset, event.Delivers offset → event ∈ world.trace ∨
    (first ≤ offset ∧ offset < log.next)
  balanced : ∀ report ∈ reports, report.delivered + report.deadLettered = report.polled
  persisted : after.persisted = some log.next ∨
    (after.persisted = world.persisted ∧ log.next ≤ first ∧ ∀ report ∈ reports, report.polled = 0)

theorem outcomes_fetched (world : SinkWorld) (position start : Nat) :
    (SinkWorld.record { world with cursor := some position } (.fetched position start)).outcomes =
      world.outcomes := by
  simp [SinkWorld.outcomes, SinkWorld.record, SinkEvent.outcomes]

theorem fetched_passed {world : SinkWorld} {position start offset : Nat} {event : SinkEvent}
    (member : event ∈
      (SinkWorld.record { world with cursor := some position } (.fetched position start)).trace)
    (delivers : event.Delivers offset) : event ∈ world.trace := by
  rcases List.mem_cons.mp member with rfl | earlier
  · obtain ⟨_, _, impossible, _⟩ := delivers
    cases impossible
  · exact earlier

/-- A round that polls nothing ends the loop. -/
theorem run_idle {log : PartitionLog} {position : Nat} {world : SinkWorld}
    (ready : Ready log position world)
    (empty : log.slice position runtime.config.batchSize = []) :
    runtime.runOnce.run (reliable runtime sink time) world =
      (.ok { polled := 0, delivered := 0, deadLettered := 0, checkpoint := position },
        SinkWorld.record { world with cursor := some position } (.fetched position log.start)) := by
  rw [run_runOnce runtime sink time ready, empty, SinkRuntime.processBatch_nil, run_done]

/-- A round that polls something settles it and is ready for the next. -/
theorem run_busy {log : PartitionLog} {position : Nat} {world : SinkWorld}
    (ready : Ready log position world)
    (busy : log.slice position runtime.config.batchSize ≠ []) :
    ∃ report after,
      runtime.runOnce.run (reliable runtime sink time) world = (.ok report, after) ∧
      report.polled = (log.slice position runtime.config.batchSize).length ∧
      report.delivered + report.deadLettered = report.polled ∧
      Rounded log (max position log.start) (log.slice position runtime.config.batchSize).length
        world after := by
  obtain ⟨report, after, ran, polled, total, rounded⟩ := run_processBatch runtime sink time
    (log.slice_numbered position runtime.config.batchSize) busy position
    (SinkWorld.record { world with cursor := some position } (.fetched position log.start))
  refine ⟨report, after, (run_runOnce runtime sink time ready).trans ran, polled, total,
    rounded.log.trans ready.log, rounded.persisted, rounded.cursor, ?_, ?_⟩
  · rw [rounded.outcomes, outcomes_fetched]
  · intro event member offset delivers
    exact (rounded.passed event member offset delivers).imp_left
      (fetched_passed · delivers)

theorem Rounded.ready {log : PartitionLog} {first count : Nat} {world after : SinkWorld}
    (rounded : Rounded log first count world after) : Ready log (first + count) after :=
  ⟨rounded.log, by rw [SinkWorld.checkpoint, rounded.persisted]; rfl, .inr rounded.cursor⟩

theorem Rounded.drained {log : PartitionLog} {first count : Nat} {world middle after : SinkWorld}
    {report : DeliveryReport} {reports : List DeliveryReport}
    (rounded : Rounded log first count world middle) (within : first + count ≤ log.next)
    (total : report.delivered + report.deadLettered = report.polled)
    (drained : Drained log (first + count) middle reports after) :
    Drained log first world (report :: reports) after := by
  refine ⟨?_, ?_, ?_, ?_⟩
  · have size : log.next - first = count + (log.next - (first + count)) := by omega
    rw [drained.outcomes, rounded.outcomes, List.append_assoc, size, List.range'_append_1]
  · intro event member offset delivers
    rcases drained.passed event member offset delivers with earlier | range
    · rcases rounded.passed event earlier offset delivers with before | range
      · exact .inl before
      · right
        omega
    · right
      omega
  · exact List.forall_mem_cons.mpr ⟨total, drained.balanced⟩
  · rcases drained.persisted with final | ⟨unchanged, ended, _⟩
    · exact .inl final
    · left
      rw [unchanged, rounded.persisted, Nat.le_antisymm within ended]

theorem drain_from {log : PartitionLog} (positive : 0 < runtime.config.batchSize)
    (restarts : Nat → Bool) (rounds index : Nat) {position : Nat} {world : SinkWorld}
    (ready : Ready log position world) (bound : position ≤ log.next)
    (enough : log.next - max position log.start < rounds) :
    ∃ reports after, drain runtime sink time restarts rounds index world = some (reports, after) ∧
      Drained log (max position log.start) world reports after := by
  induction rounds generalizing index position world with
  | zero => omega
  | succ rounds ih =>
      obtain ⟨begun, same, readyBegun, trace, stored⟩ : ∃ begun,
          (if restarts index then world.restart else world) = begun ∧ Ready log position begun ∧
            begun.trace = world.trace ∧ begun.persisted = world.persisted := by
        refine ⟨_, rfl, ?_⟩
        split
        · exact ⟨ready.restart, rfl, rfl⟩
        · exact ⟨ready, rfl, rfl⟩
      have size : (log.slice position runtime.config.batchSize).length =
          min runtime.config.batchSize (log.next - max position log.start) :=
        log.length_slice position runtime.config.batchSize
      have outcomes : begun.outcomes = world.outcomes := by rw [SinkWorld.outcomes, trace]; rfl
      by_cases empty : log.slice position runtime.config.batchSize = []
      · have caught : log.next - max position log.start = 0 := by
          rw [empty, List.length_nil] at size
          omega
        refine ⟨[{ polled := 0, delivered := 0, deadLettered := 0, checkpoint := position }],
          SinkWorld.record { begun with cursor := some position } (.fetched position log.start),
          ?_, ?_, ?_, ?_, ?_⟩
        · simp only [drain, same, run_idle runtime sink time readyBegun empty, ↓reduceIte]
        · rw [outcomes_fetched, outcomes, caught, List.range'_zero, List.append_nil]
        · exact fun event member offset delivers => .inl (trace ▸ fetched_passed member delivers)
        · simp
        · exact .inr ⟨stored, by omega, by simp⟩
      · obtain ⟨report, middle, ran, polled, total, rounded⟩ :=
          run_busy runtime sink time readyBegun empty
        have progress : 0 < (log.slice position runtime.config.batchSize).length :=
          List.length_pos_iff.mpr empty
        generalize (log.slice position runtime.config.batchSize).length = count at *
        have higher : max (max position log.start + count) log.start =
            max position log.start + count := by omega
        obtain ⟨reports, after, later, drained⟩ := ih (index + 1) rounded.ready (by omega)
          (by rw [higher]; omega)
        rw [higher] at drained
        have more : report.polled ≠ 0 := by omega
        have whole := rounded.drained (by omega) total drained
        refine ⟨report :: reports, after, ?_, ?_, ?_, whole.balanced, ?_⟩
        · simp only [drain, same, ran, more, ↓reduceIte, later, Option.map_some]
        · rw [whole.outcomes, outcomes]
        · exact trace ▸ whole.passed
        · exact stored ▸ whole.persisted

/-- Draining handles every record exactly once: it ends, it settles the offsets
from the checkpoint or the start of the log to its end, each once and in order,
it passes nothing else to the sink, and it leaves the checkpoint at the end. -/
theorem drain_complete {runtime : SinkRuntime} (positive : 0 < runtime.config.batchSize)
    (sink : Nat → Except PortError Unit) (time : DateTime) (restarts : Nat → Bool)
    (log : PartitionLog) {persisted : Option Nat} (bound : persisted.getD Offset.zero ≤ log.next)
    {rounds : Nat} (enough : log.next - max (persisted.getD Offset.zero) log.start < rounds) :
    ∃ reports after,
      drain runtime sink time restarts rounds 0 (.fresh log persisted) = some (reports, after) ∧
      after.outcomes = List.range' (max (persisted.getD Offset.zero) log.start)
        (log.next - max (persisted.getD Offset.zero) log.start) ∧
      (∀ event ∈ after.trace, ∀ offset, event.Delivers offset →
        max (persisted.getD Offset.zero) log.start ≤ offset ∧ offset < log.next) ∧
      (∀ report ∈ reports, report.delivered + report.deadLettered = report.polled) ∧
      ((∃ report ∈ reports, 0 < report.polled) → after.persisted = some log.next) := by
  have ready : Ready log (persisted.getD Offset.zero) (.fresh log persisted) :=
    ⟨rfl, rfl, .inl rfl⟩
  obtain ⟨reports, after, ran, drained⟩ :=
    drain_from runtime sink time positive restarts rounds 0 ready bound enough
  refine ⟨reports, after, ran, drained.outcomes, ?_, drained.balanced, ?_⟩
  · intro event member offset delivers
    rcases drained.passed event member offset delivers with before | range
    · cases before
    · exact range
  · rintro ⟨report, member, polled⟩
    rcases drained.persisted with final | ⟨_, _, none⟩
    · exact final
    · rw [none report member] at polled
      exact absurd polled (Nat.lt_irrefl 0)

/-- Two records left of three, restarting before every round: the first is
delivered at the second attempt, the other dead-lettered. -/
theorem drain_complete_restarting :
    ∃ (runtime : SinkRuntime) (log : PartitionLog) (reports : List DeliveryReport)
        (after : SinkWorld),
      runtime.config.batchSize = 1 ∧ log.start = 0 ∧ log.next = 3 ∧
      drain runtime (fun attempt => if attempt = 1 then .ok () else .error (.transient "flaky"))
        .epoch (fun _ => true) 3 0 (.fresh log (some 1)) = some (reports, after) ∧
      after.outcomes = [1, 2] ∧
      ((∃ report ∈ reports, 0 < report.polled) → after.persisted = some 3) := by
  let runtime := plainSink { guarantee := .atLeastOnce, maxAttempts := 2, batchSize := 1 }
  let log := plainLog 3
  obtain ⟨reports, after, ran, outcomes, _, _, persisted⟩ := drain_complete
    (show 0 < runtime.config.batchSize by decide)
    (fun attempt => if attempt = 1 then .ok () else .error (.transient "flaky")) .epoch
    (fun _ => true) log (show (some 1).getD Offset.zero ≤ log.next by decide)
    (show log.next - max ((some 1).getD Offset.zero) log.start < 3 by decide)
  exact ⟨runtime, log, reports, after, rfl, rfl, rfl, ran, outcomes, persisted⟩

end Reliable

end ConnectForge
