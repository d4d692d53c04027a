import ConnectForge.Core.Error
import ConnectForge.Core.Retry
import ConnectForge.Types.Connector

namespace ConnectForge

open Interaction

/-! The sink side of the connector runtime: read, deliver with retries,
dead-letter what fails, checkpoint. -/

/-- Everything a sink runtime awaits or shares between its calls. -/
inductive SinkCall where
  | readCursor
  | writeCursor (offset : Nat)
  | load (connector : ConnectorId) (topic : TopicName) (partition : Nat)
  | save (checkpoint : Checkpoint)
  | fetch (topic : TopicName) (partition start max : Nat)
  | deliver (records : List Record)
  | deadLetter (record : DeadLetterRecord)
  | now
  | addProcessed
  | addDead
  | readProcessed
  | readDead

@[reducible] def SinkCall.Answer : SinkCall → Type
  | readCursor => Option Nat
  | writeCursor _ => Unit
  | load _ _ _ => Except PortError (Option Nat)
  | save _ => Except PortError Unit
  | fetch _ _ _ _ => Except PortError FetchResult
  | deliver _ => Except PortError Unit
  | deadLetter _ => Except PortError Unit
  | now => DateTime
  | addProcessed => Unit
  | addDead => Unit
  | readProcessed => Nat
  | readDead => Nat

abbrev SinkProgram := Program SinkCall SinkCall.Answer

/-! The calls with the types of their answers. -/

abbrev readCursor : SinkProgram (Option Nat) := Program.ask SinkCall.readCursor

abbrev writeCursor (offset : Nat) : SinkProgram Unit := Program.ask (SinkCall.writeCursor offset)

abbrev loadCheckpoint (connector : ConnectorId) (topic : TopicName) (partition : Nat) :
    SinkProgram (Except PortError (Option Nat)) :=
  Program.ask (SinkCall.load connector topic partition)

abbrev saveCheckpoint (checkpoint : Checkpoint) : SinkProgram (Except PortError Unit) :=
  Program.ask (SinkCall.save checkpoint)

abbrev fetchRecords (topic : TopicName) (partition start max : Nat) :
    SinkProgram (Except PortError FetchResult) :=
  Program.ask (SinkCall.fetch topic partition start max)

abbrev deliverRecords (records : List Record) : SinkProgram (Except PortError Unit) :=
  Program.ask (SinkCall.deliver records)

abbrev storeDeadLetter (record : DeadLetterRecord) : SinkProgram (Except PortError Unit) :=
  Program.ask (SinkCall.deadLetter record)

abbrev currentTime : SinkProgram DateTime := Program.ask SinkCall.now

abbrev addProcessed : SinkProgram Unit := Program.ask SinkCall.addProcessed

abbrev addDead : SinkProgram Unit := Program.ask SinkCall.addDead

abbrev readProcessed : SinkProgram Nat := Program.ask SinkCall.readProcessed

abbrev readDead : SinkProgram Nat := Program.ask SinkCall.readDead

structure SinkConfig where
  guarantee : DeliveryGuarantee
  /-- Maximum delivery attempts before dead-lettering. -/
  maxAttempts : Nat
  /-- Maximum records to read per poll round. -/
  batchSize : Nat
deriving DecidableEq

def SinkConfig.default : SinkConfig where
  guarantee := .atLeastOnce
  maxAttempts := 3
  batchSize := 500

structure SinkRuntime where
  id : ConnectorId
  topic : TopicName
  partition : Nat
  config : SinkConfig
deriving DecidableEq

namespace SinkRuntime

variable (runtime : SinkRuntime)

def resolveCheckpoint : SinkProgram (Except CoreError Nat) := do
  match ← readCursor with
  | some cached => return .ok cached
  | none =>
      match ← loadCheckpoint runtime.id runtime.topic runtime.partition with
      | .error reason => return .error (.port reason)
      | .ok found =>
          let loaded := found.getD Offset.zero
          writeCursor loaded
          return .ok loaded

def commitCheckpoint (offset : Nat) : SinkProgram (Except CoreError Unit) := do
  match ← saveCheckpoint {
      connector := runtime.id
      topic := runtime.topic
      partition := runtime.partition
      offset } with
  | .error reason => return .error (.port reason)
  | .ok () =>
      writeCursor offset
      return .ok ()

def deliverOne (record : Record) : SinkProgram (Except String Unit) := do
  match ← retryIf (Nat.max runtime.config.maxAttempts 1) (deliverRecords [record])
      PortError.isRetryable with
  | .ok () => return .ok ()
  | .error reason => return .error reason.toText

def deadLetter (record : Record) (reason : String) : SinkProgram (Except CoreError Unit) := do
  let failedAt ← currentTime
  match ← storeDeadLetter {
      connector := runtime.id
      topic := runtime.topic
      partition := runtime.partition
      offset := record.offset
      payload := record.payload
      reason
      attempts := Nat.max runtime.config.maxAttempts 1
      failedAt } with
  | .error reason => return .error (.port reason)
  | .ok () => return .ok ()

/-- The loop over a batch, with the counts so far. -/
def deliverAll : List Record → Nat → Nat → SinkProgram (Except CoreError (Nat × Nat))
  | [], delivered, dead => return .ok (delivered, dead)
  | record :: rest, delivered, dead => do
      match ← runtime.deliverOne record with
      | .ok () =>
          addProcessed
          deliverAll rest (delivered + 1) dead
      | .error reason =>
          match ← runtime.deadLetter record reason with
          | .error reason => return .error reason
          | .ok () =>
              addDead
              deliverAll rest delivered (dead + 1)

/-- Commit the checkpoint if this is the guarantee that commits here. -/
def commitUnder (guarantee : DeliveryGuarantee) (offset : Nat) :
    SinkProgram (Except CoreError Unit) :=
  if runtime.config.guarantee = guarantee then runtime.commitCheckpoint offset
  else return .ok ()

theorem commitUnder_same {guarantee : DeliveryGuarantee}
    (same : runtime.config.guarantee = guarantee) (offset : Nat) :
    runtime.commitUnder guarantee offset = runtime.commitCheckpoint offset := if_pos same

theorem commitUnder_other {guarantee : DeliveryGuarantee}
    (other : runtime.config.guarantee ≠ guarantee) (offset : Nat) :
    runtime.commitUnder guarantee offset = .done (.ok ()) := if_neg other

/-- The rest of a round, once its records have been read. -/
def processBatch (start : Nat) (records : List Record) :
    SinkProgram (Except CoreError DeliveryReport) :=
  if records.isEmpty then
    return .ok { polled := 0, delivered := 0, deadLettered := 0, checkpoint := start }
  else do
    let next := nextAfter records start
    match ← runtime.commitUnder .atMostOnce next with
    | .error reason => return .error reason
    | .ok () =>
        match ← runtime.deliverAll records 0 0 with
        | .error reason => return .error reason
        | .ok (delivered, dead) =>
            match ← runtime.commitUnder .atLeastOnce next with
            | .error reason => return .error reason
            | .ok () => return .ok {
                polled := records.length
                delivered
                deadLettered := dead
                checkpoint := next }

theorem processBatch_nil (start : Nat) : runtime.processBatch start [] =
    .done (.ok { polled := 0, delivered := 0, deadLettered := 0, checkpoint := start }) := rfl

/-- Process one batch: read, deliver with retry, dead-letter failures,
checkpoint. -/
def runOnce : SinkProgram (Except CoreError DeliveryReport) := do
  match ← runtime.resolveCheckpoint with
  | .error reason => return .error reason
  | .ok start =>
      match ← fetchRecords runtime.topic runtime.partition start runtime.config.batchSize with
      | .error reason => return .error (.port reason)
      | .ok batch => runtime.processBatch start batch.records

def status : SinkProgram (Except CoreError ConnectorStatus) := do
  let processed ← readProcessed
  let deadLettered ← readDead
  match ← runtime.resolveCheckpoint with
  | .error reason => return .error reason
  | .ok checkpoint => return .ok {
      id := runtime.id
      kind := .sink
      guarantee := runtime.config.guarantee
      running := true
      processed
      deadLettered
      checkpoint }

end SinkRuntime

end ConnectForge
