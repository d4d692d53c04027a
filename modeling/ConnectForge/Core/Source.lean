import ConnectForge.Core.Error
import ConnectForge.Core.PartitionLog
import ConnectForge.Interaction.Program

namespace ConnectForge

open Interaction

/-! The source side of the connector runtime: poll, then append to a topic
partition. -/

inductive SourceCall where
  | poll
  | now
  | append (topic : TopicName) (partition : Nat) (records : List ProduceRecord) (timestamp : DateTime)
  | addProduced (count : Nat)

@[reducible] def SourceCall.Answer : SourceCall → Type
  | poll => Except PortError (List ProduceRecord)
  | now => DateTime
  | append _ _ _ _ => Except PortError AppendOutcome
  | addProduced _ => Unit

abbrev SourceProgram := Program SourceCall SourceCall.Answer

abbrev pollSource : SourceProgram (Except PortError (List ProduceRecord)) :=
  Program.ask SourceCall.poll

abbrev sourceTime : SourceProgram DateTime := Program.ask SourceCall.now

abbrev appendBatch (topic : TopicName) (partition : Nat) (records : List ProduceRecord)
    (timestamp : DateTime) : SourceProgram (Except PortError AppendOutcome) :=
  Program.ask (SourceCall.append topic partition records timestamp)

abbrev addProduced (count : Nat) : SourceProgram Unit := Program.ask (SourceCall.addProduced count)

structure SourceRuntime where
  id : ConnectorId
  topic : TopicName
  partition : Nat

def SourceRuntime.runOnce (runtime : SourceRuntime) : SourceProgram (Except CoreError Nat) := do
  match ← pollSource with
  | .error reason => return .error (.port reason)
  | .ok records =>
      if records.isEmpty then return .ok 0
      else
        let count := records.length
        let timestamp ← sourceTime
        match ← appendBatch runtime.topic runtime.partition records timestamp with
        | .error reason => return .error (.port reason)
        | .ok _ =>
            addProduced count
            return .ok count

/-- The partition after a whole batch was appended to it. -/
structure PartitionLog.Extended (log later : PartitionLog) (batch : List ProduceRecord)
    (timestamp : DateTime) (added : List Record) : Prop where
  materialized : materialize log.next timestamp batch = some added
  start : later.start = log.start
  records : later.records = log.records ++ added

/-- The records of a partition as their producers submitted them. -/
def PartitionLog.submitted (log : PartitionLog) : List ProduceRecord :=
  log.records.map Record.submitted

theorem PartitionLog.Extended.submitted {log later : PartitionLog} {batch : List ProduceRecord}
    {timestamp : DateTime} {added : List Record}
    (extended : log.Extended later batch timestamp added) :
    later.submitted = log.submitted ++ batch := by
  rw [PartitionLog.submitted, extended.records, List.map_append,
    materialize_submitted extended.materialized]
  rfl

/-- A source in any state it may have, the partition it fills, and everything
its polls have returned so far. -/
structure SourceWorld (σ : Type) where
  source : σ
  log : PartitionLog
  produced : Nat
  polled : List ProduceRecord

section Runs

variable {σ : Type} (polls : σ → Except PortError (List ProduceRecord) → σ → Prop)
  (runtime : SourceRuntime)

/-- The answers of a source and of a store that appends a batch as a whole or
not at all. -/
def SourceAnswers :
    (request : SourceCall) → SourceWorld σ → request.Answer → SourceWorld σ → Prop
  | .poll, world, answer, after => ∃ source, polls world.source answer source ∧
      after = { world with source, polled := world.polled ++ answer.toOption.getD [] }
  | .now, world, _, after => after = world
  | .append topic partition records timestamp, world, answer, after =>
      (∃ reason, answer = .error reason ∧ after = world) ∨
      (∃ outcome log, answer = .ok outcome ∧ after = { world with log } ∧
        (topic = runtime.topic → partition = runtime.partition →
          world.log.Extended log records timestamp outcome.records))
  | .addProduced count, world, _, after => after = { world with produced := world.produced + count }

def AcceptingAnswers (request : SourceCall) (world : SourceWorld σ) (answer : request.Answer)
    (after : SourceWorld σ) : Prop :=
  SourceAnswers polls runtime request world answer after ∧
    match request, answer with
    | .append _ _ _ _, .error _ => False
    | _, _ => True

/-- One call of `runOnce`. -/
def SourceRound (answers : (request : SourceCall) → SourceWorld σ → request.Answer → SourceWorld σ → Prop)
    (world after : SourceWorld σ) : Prop :=
  ∃ result, Ends answers runtime.runOnce world result after

/-- Some run of later rounds appends the record, with nothing before it that
has not been polled yet. -/
def StillHeld (world : SourceWorld σ) (record : ProduceRecord) : Prop :=
  ∃ later before rest, Relation.ReflTransGen (SourceRound runtime (SourceAnswers polls runtime)) world later ∧
    later.log.submitted = world.log.submitted ++ before ++ record :: rest ∧
    ∀ other ∈ before, other ∈ world.polled

/-- Every polled record is in the log or will still get there. -/
def NothingDropped (world : SourceWorld σ) : Prop :=
  ∀ record ∈ world.polled, record ∈ world.log.submitted ∨ StillHeld polls runtime world record

/-- What a round does: it polls nothing, or loses what it polled to a failed
append, or appends it. -/
inductive RoundOutcome (answers : (request : SourceCall) → SourceWorld σ → request.Answer → SourceWorld σ → Prop)
    (world after : SourceWorld σ) : Prop where
  | idle (answer : Except PortError (List ProduceRecord)) (polled : polls world.source answer after.source)
      (nothing : answer.toOption.getD [] = []) (log : after.log = world.log)
      (same : after.polled = world.polled)
  | failed (records : List ProduceRecord) (polled : polls world.source (.ok records) after.source)
      (timestamp : DateTime) (reason : PortError)
      (refused : answers (.append runtime.topic runtime.partition records timestamp) after (.error reason) after)
      (log : after.log = world.log) (grown : after.polled = world.polled ++ records)
  | appended (records : List ProduceRecord) (polled : polls world.source (.ok records) after.source)
      (log : after.log.submitted = world.log.submitted ++ records)
      (grown : after.polled = world.polled ++ records)

variable {polls runtime}

theorem SourceRound.outcome
    {answers : (request : SourceCall) → SourceWorld σ → request.Answer → SourceWorld σ → Prop}
    (answered : ∀ {request world answer after}, answers request world answer after →
      SourceAnswers polls runtime request world answer after)
    {world after : SourceWorld σ} (round : SourceRound runtime answers world after) :
    RoundOutcome polls runtime answers world after := by
  obtain ⟨result, ended⟩ := round
  obtain ⟨answer, polled, given, rest⟩ := ends_call ended
  obtain ⟨source, moved, rfl⟩ := answered given
  cases answer with
  | error reason =>
      obtain ⟨_, rfl⟩ := ends_done rest
      exact .idle _ moved rfl rfl (List.append_nil _)
  | ok records =>
      cases records with
      | nil =>
          obtain ⟨_, rfl⟩ := ends_done rest
          exact .idle _ moved rfl rfl (List.append_nil _)
      | cons first others =>
          obtain ⟨timestamp, timed, given, rest⟩ := ends_call rest
          have same := answered given
          obtain rfl : timed = _ := same
          obtain ⟨answer, stored, given, rest⟩ := ends_call rest
          rcases answered given with ⟨reason, rfl, rfl⟩ | ⟨outcome, log, rfl, rfl, extended⟩
          · obtain ⟨_, rfl⟩ := ends_done rest
            exact .failed _ moved timestamp reason given rfl rfl
          · obtain ⟨_, counted, given, rest⟩ := ends_call rest
            obtain rfl : counted = _ := answered given
            obtain ⟨_, rfl⟩ := ends_done rest
            exact .appended _ moved (extended rfl rfl).submitted rfl

end Runs

/-- As long as no append fails, everything a source has returned is in the log,
in the order in which it was polled. -/
theorem source_keeps_polled {σ : Type}
    (polls : σ → Except PortError (List ProduceRecord) → σ → Prop) (runtime : SourceRuntime)
    (source : σ) (log : PartitionLog) {world : SourceWorld σ}
    (run : Relation.ReflTransGen (SourceRound runtime (AcceptingAnswers polls runtime))
      { source, log, produced := 0, polled := [] } world) :
    world.log.submitted = log.submitted ++ world.polled ∧ NothingDropped polls runtime world := by
  suffices kept : world.log.submitted = log.submitted ++ world.polled by
    refine ⟨kept, ?_⟩
    intro record member
    rw [kept]
    exact .inl (List.mem_append_right _ member)
  induction run with
  | refl => exact (List.append_nil _).symm
  | tail _ round ih =>
      cases round.outcome And.left with
      | idle answer polled nothing log same => rw [log, same, ih]
      | failed records polled timestamp reason refused log grown => exact refused.2.elim
      | appended records polled log grown => rw [log, grown, ih, List.append_assoc]

/-- A source that returns one record and then nothing. -/
theorem source_keeps_polled_once :
    ∃ world : SourceWorld Bool,
      Relation.ReflTransGen
        (SourceRound ⟨⟨"source", by decide⟩, ⟨"events", by decide⟩, 0⟩
          (AcceptingAnswers (fun empty answer after => after = true ∧
              answer = .ok (if empty then [] else [⟨none, [1]⟩]))
            ⟨⟨"source", by decide⟩, ⟨"events", by decide⟩, 0⟩))
        ⟨false, ⟨0, [], rfl⟩, 0, []⟩ world ∧
      world.polled = [⟨none, [1]⟩] ∧ world.log.submitted = world.polled := by
  let later : PartitionLog := ⟨0, [⟨0, .epoch, none, [1]⟩], rfl⟩
  let runtime : SourceRuntime := ⟨⟨"source", by decide⟩, ⟨"events", by decide⟩, 0⟩
  have run : Relation.ReflTransGen (SourceRound runtime (AcceptingAnswers
      (fun empty answer after => after = true ∧ answer = .ok (if empty then [] else [⟨none, [1]⟩]))
      runtime)) ⟨false, ⟨0, [], rfl⟩, 0, []⟩ ⟨true, later, 1, [⟨none, [1]⟩]⟩ := by
    refine .single ⟨.ok 1, ?_⟩
    refine .call ⟨⟨true, ⟨rfl, rfl⟩, rfl⟩, trivial⟩ ?_
    refine @Ends.call _ _ _ _ _ _ _ _ DateTime.epoch _ _ _ ⟨rfl, trivial⟩ ?_
    refine .call ⟨.inr ⟨⟨later.records, none⟩, later, rfl, rfl, fun _ _ => ⟨rfl, rfl, rfl⟩⟩, trivial⟩ ?_
    exact @Ends.call _ _ _ _ _ _ _ _ () _ _ _ ⟨rfl, trivial⟩ .done
  exact ⟨_, run, rfl, (source_keeps_polled _ runtime false _ run).1⟩

end ConnectForge
