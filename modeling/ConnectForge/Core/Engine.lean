import ConnectForge.Core.LogStore
import ConnectForge.Core.Retry

namespace ConnectForge

open Interaction

/-! The broker engine.  Storage calls are retried; the timeout around them is
left out. -/

inductive LogEvent where
  | topicCreated (topic : TopicName) (partitions : Nat)
  | recordsAppended (topic : TopicName) (partition baseOffset : Nat) (records : List Record)
  | recordsTruncated (topic : TopicName) (partition newStart : Nat)
deriving DecidableEq

def LogEvent.kind : LogEvent → String
  | topicCreated _ _ => "topic_created"
  | recordsAppended _ _ _ _ => "records_appended"
  | recordsTruncated _ _ _ => "records_truncated"

/-- The topic this event pertains to. -/
def LogEvent.topic : LogEvent → TopicName
  | topicCreated topic _ => topic
  | recordsAppended topic _ _ _ => topic
  | recordsTruncated topic _ _ => topic

inductive EngineCall where
  | tryAcquire (count : Nat)
  | store (request : StoreCall)
  /-- `round_robin.fetch_add(1)`. -/
  | nextSlot
  | now
  | publish (event : LogEvent)

@[reducible] def EngineCall.Answer : EngineCall → Type
  | tryAcquire _ => Bool
  | store request => request.Answer
  | nextSlot => Nat
  | now => DateTime
  | publish _ => Except PortError Unit

abbrev EngineProgram := Program EngineCall EngineCall.Answer

structure LogConfig where
  maxTopics : Nat
  defaultPartitions : Nat
  fetchMaxRecords : Nat
  /-- With none, the clamp in `fetch` would panic. -/
  fetchable : 1 ≤ fetchMaxRecords := by decide

def LogConfig.default : LogConfig where
  maxTopics := 1024
  defaultPartitions := 3
  fetchMaxRecords := 1024

/-- `RetryPolicy::default().max_attempts`. -/
def storeAttempts : Nat := 3

def storeCall {α : Type} (op : EngineProgram (Except PortError α)) :
    EngineProgram (Except CoreError α) := do
  match ← retryIf storeAttempts op PortError.isRetryable with
  | .ok value => return .ok value
  | .error reason => return .error (.port reason)

/-- A storage operation that may fail only in a state from which it can be tried
again. -/
theorem safe_storeCall {World α : Type}
    {answers : (request : EngineCall) → World → request.Answer → World → Prop} (ready : World → Prop)
    {good : α → World → Prop} {op : EngineProgram (Except PortError α)}
    (attempt : ∀ world, ready world → Safe answers Eq (fun _ _ => True)
      (fun result world =>
        (∀ value, result = .ok value → good value world) ∧ ∀ reason, result = .error reason → ready world)
      op world)
    {world : World} (holds : ready world) :
    Safe answers Eq (fun _ _ => True) (fun result world => ∀ value, result = .ok value → good value world)
      (storeCall op) world := by
  refine Safe.bind (fun _ => rfl) (safe_retryIf (fun _ => rfl) storeAttempts attempt ?_ holds) ?_
  · rintro result before _ post rfl
    exact post
  · intro result after post
    cases result with
    | ok value =>
        rintro _ rfl result same
        cases same
        exact post value rfl
    | error reason =>
        rintro _ rfl value same
        cases same

theorem follows_storeCall {Memo α : Type} {permits : Memo → EngineCall → Prop}
    {note : Memo → (request : EngineCall) → request.Answer → Memo} (ready : Memo → Prop)
    (good : α → Memo → Prop) {op : EngineProgram (Except PortError α)}
    (attempt : ∀ memo, ready memo → op.Follows permits note
      (fun result memo => (∀ value, result = .ok value → good value memo) ∧
        ∀ reason, result = .error reason → ready memo) memo)
    {memo : Memo} (holds : ready memo) :
    (storeCall op).Follows permits note
      (fun result memo => (∀ value, result = .ok value → good value memo) ∧
        ∀ reason, result = .error reason → ready memo) memo := by
  refine (follows_retryIf storeAttempts attempt holds).bind ?_
  rintro (reason | value) memo ⟨fine, again⟩
  · exact ⟨nofun, fun _ _ => again reason rfl⟩
  · refine ⟨?_, nofun⟩
    intro result same
    cases same
    exact fine value rfl

section Attempts

variable {World α : Type} {answers : (request : EngineCall) → World → request.Answer → World → Prop}
  {op : EngineProgram (Except PortError α)} {world middle final : World} {value : α}

theorem storeCall_first (attempt : Ends answers op world (.ok value) final) :
    Ends answers (storeCall op) world (.ok value) final :=
  Ends.bind (Ends.bind attempt .done) .done

theorem storeCall_second {reason : String}
    (first : Ends answers op world (.error (.transient reason)) middle)
    (second : Ends answers op middle (.ok value) final) :
    Ends answers (storeCall op) world (.ok value) final :=
  Ends.bind (Ends.bind first (Ends.bind second .done)) .done

end Attempts

def fnv1a (bytes : Bytes) : UInt64 :=
  bytes.foldl (fun hash byte => (hash ^^^ byte.toUInt64) * 0x00000100000001b3) 0xcbf29ce484222325

def keyedPartition (key : String) (count : Nat) : Nat := (fnv1a (asBytes key)).toNat % count

/-- Route a batch by the key of its first record, or round-robin.  A topic has
at least one partition. -/
def route (key : Option String) (count : Nat) : EngineProgram Nat :=
  match key with
  | some key => return keyedPartition key count
  | none => do
      let slot ← Program.ask EngineCall.nextSlot
      return slot % count

def validateAll : List ProduceRecord → Except InvalidRecord Unit
  | [] => .ok ()
  | record :: rest =>
      match record.validate with
      | .error reason => .error reason
      | .ok () => validateAll rest

theorem validateAll_mem {records : List ProduceRecord} (valid : validateAll records = .ok ()) :
    ∀ record ∈ records, record.validate = .ok () := by
  induction records with
  | nil => simp
  | cons first rest ih =>
      unfold validateAll at valid
      split at valid
      · contradiction
      · rename_i firstValid
        intro record member
        rcases List.mem_cons.mp member with rfl | later
        · exact firstValid
        · exact ih valid record later

theorem validateAll_payload {records : List ProduceRecord} (valid : validateAll records = .ok ()) :
    ∀ record ∈ records, record.payload.length ≤ maxPayloadBytes := by
  intro record member
  have accepted := validateAll_mem valid record member
  unfold ProduceRecord.validate at accepted
  split at accepted
  · contradiction
  · split at accepted
    · contradiction
    · omega

/-- `partition_count` of the engine. -/
def partitionCount (topic : TopicName) : EngineProgram (Except CoreError (Option Nat)) :=
  storeCall (Program.ask (EngineCall.store (.partitionCount topic)))

/-- The partition count of a topic that has to exist. -/
def requireTopic (topic : TopicName) : EngineProgram (Except CoreError Nat) := do
  match ← partitionCount topic with
  | .error reason => return .error reason
  | .ok none => return .error (.topicNotFound topic.asStr)
  | .ok (some count) => return .ok count

/-- What `produce` reports of an append. -/
def produceResult (outcome : AppendOutcome) : ProduceResult where
  baseOffset := (outcome.records.head?.map Record.offset).getD Offset.zero
  lastOffset := (outcome.records.getLast?.map Record.offset).getD Offset.zero
  count := outcome.records.length
  truncatedTo := outcome.truncatedTo

/-- Tell the bus about an append; a publish that fails changes nothing. -/
def announce (topic : TopicName) (partition : Nat) (outcome : AppendOutcome) : EngineProgram Unit := do
  let _ ← Program.ask (EngineCall.publish
    (.recordsAppended topic partition (produceResult outcome).baseOffset outcome.records))
  match outcome.truncatedTo with
  | none => return ()
  | some newStart =>
      let _ ← Program.ask (EngineCall.publish (.recordsTruncated topic partition newStart))
      return ()

def produce (topic : TopicName) (records : List ProduceRecord) :
    EngineProgram (Except CoreError ProduceResult) :=
  if records.isEmpty then return .error .emptyBatch
  else do
    let admitted ← Program.ask (EngineCall.tryAcquire records.length)
    if !admitted then return .error .rateLimited
    else
      match validateAll records with
      | .error reason => return .error (.invalid reason)
      | .ok () =>
          match ← requireTopic topic with
          | .error reason => return .error reason
          | .ok count =>
              let partition ← route (records.head?.bind ProduceRecord.key) count
              let timestamp ← Program.ask EngineCall.now
              match ← storeCall (Program.ask
                  (EngineCall.store (.append topic partition records timestamp))) with
              | .error reason => return .error reason
              | .ok outcome =>
                  announce topic partition outcome
                  return .ok (produceResult outcome)

/-- The stages of a produce that returned. -/
theorem produce_stages {World : Type}
    {answers : (request : EngineCall) → World → request.Answer → World → Prop} {world after : World}
    {topic : TopicName} {batch : List ProduceRecord} {result : ProduceResult}
    (ended : Ends answers (produce topic batch) world (.ok result) after) :
    ∃ admitted count counted partition routed timestamp timed outcome stored,
      Ends answers (Program.ask (EngineCall.tryAcquire batch.length)) world true admitted ∧
      Ends answers (requireTopic topic) admitted (.ok count) counted ∧
      Ends answers (route (batch.head?.bind ProduceRecord.key) count) counted partition routed ∧
      Ends answers (Program.ask EngineCall.now) routed timestamp timed ∧
      Ends answers (storeCall (Program.ask (EngineCall.store (.append topic partition batch timestamp))))
        timed (.ok outcome) stored ∧
      Ends answers (announce topic partition outcome) stored () after ∧
      batch ≠ [] ∧ validateAll batch = .ok () ∧ result = produceResult outcome := by
  unfold produce at ended
  split at ended
  · cases (ends_done ended).1
  rename_i nonempty
  obtain ⟨admits, admitted, acquires, afterLimiter⟩ := ends_bind ended
  cases admits with
  | false => cases (ends_done afterLimiter).1
  | true =>
      simp only [Bool.not_true, Bool.false_eq_true, ↓reduceIte] at afterLimiter
      cases valid : validateAll batch with
      | error reason =>
          rw [valid] at afterLimiter
          cases (ends_done afterLimiter).1
      | ok =>
          rw [valid] at afterLimiter
          obtain ⟨required, counted, requires, afterCount⟩ := ends_bind afterLimiter
          cases required with
          | error reason => cases (ends_done afterCount).1
          | ok count =>
              dsimp only at afterCount
              obtain ⟨partition, routed, routes, afterRoute⟩ := ends_bind afterCount
              obtain ⟨timestamp, timed, times, afterClock⟩ := ends_bind afterRoute
              obtain ⟨answer, stored, stores, afterStore⟩ := ends_bind afterClock
              cases answer with
              | error reason => cases (ends_done afterStore).1
              | ok outcome =>
                  dsimp only at afterStore
                  obtain ⟨_, announced, announces, afterAnnounce⟩ := ends_bind afterStore
                  obtain ⟨reported, rfl⟩ := ends_done afterAnnounce
                  exact ⟨admitted, count, counted, partition, routed, timestamp, timed, outcome, stored,
                    acquires, requires, routes, times, stores, announces, by simpa using nonempty, rfl,
                    Except.ok.inj reported⟩

namespace LogConfig

variable (engine : LogConfig)

def createTopic (name : TopicName) (partitions : Nat) (retention : RetentionPolicy) :
    EngineProgram (Except CoreError Unit) :=
  let partitions := if partitions = 0 then engine.defaultPartitions else partitions
  match TopicConfig.new name partitions retention with
  | .error reason => return .error (.invalid reason)
  | .ok config => do
      match ← storeCall (Program.ask (EngineCall.store .topics)) with
      | .error reason => return .error reason
      | .ok existing =>
          if engine.maxTopics ≤ existing.length then return .error (.capacityExceeded engine.maxTopics)
          else
            match ← storeCall (Program.ask (EngineCall.store (.createTopic config))) with
            | .error reason => return .error reason
            | .ok false => return .error (.topicExists name.asStr)
            | .ok true =>
                let _ ← Program.ask (EngineCall.publish (.topicCreated name partitions))
                return .ok ()

/-- Fetch records from a partition, at least one and at most as many as the
configuration allows. -/
def fetch (topic : TopicName) (partition start max : Nat) :
    EngineProgram (Except CoreError FetchResult) := do
  match ← requireTopic topic with
  | .error reason => return .error reason
  | .ok count =>
      if count ≤ partition then
        return .error (.partitionOutOfRange topic.asStr partition count)
      else
        let max := if max < 1 then 1 else Nat.min max engine.fetchMaxRecords
        storeCall (Program.ask (EngineCall.store (.fetch topic partition start max)))

end LogConfig

/-! What reaches the store. -/

/-- What the engine asks of a store: configurations that passed their checks, and
batches of valid records. -/
def Issued : StoreCall → Prop
  | .createTopic config =>
      TopicConfig.new config.name config.partitions config.retention = .ok config
  | .append _ _ records _ => records ≠ [] ∧ validateAll records = .ok ()
  | _ => True

def EngineCall.Issued : EngineCall → Prop
  | .store request => ConnectForge.Issued request
  | _ => True

theorem makes_storeCall {good : EngineCall → Prop} {α : Type}
    {op : EngineProgram (Except PortError α)} (makes : op.Makes good) : (storeCall op).Makes good := by
  refine (makes_retryIf storeAttempts makes).bind ?_
  intro result
  cases result <;> trivial

theorem makes_requireTopic (topic : TopicName) : (requireTopic topic).Makes EngineCall.Issued := by
  refine (makes_storeCall (makes_ask trivial)).bind ?_
  intro result
  rcases result with _ | ⟨_ | _⟩ <;> trivial

theorem makes_produce (topic : TopicName) (records : List ProduceRecord) :
    (produce topic records).Makes EngineCall.Issued := by
  unfold produce
  split
  · trivial
  rename_i nonempty
  refine (makes_ask trivial).bind fun admitted => ?_
  split
  · trivial
  split
  · trivial
  rename_i valid
  refine (makes_requireTopic topic).bind fun required => ?_
  cases required with
  | error reason => trivial
  | ok count =>
      have routed : (route (records.head?.bind ProduceRecord.key) count).Makes EngineCall.Issued := by
        unfold route
        split
        · trivial
        · exact (makes_ask trivial).bind fun _ => trivial
      refine routed.bind fun partition => (makes_ask trivial).bind fun timestamp => ?_
      refine (makes_storeCall (makes_ask ⟨by simpa using nonempty, valid⟩)).bind fun stored => ?_
      cases stored with
      | error reason => trivial
      | ok outcome =>
          refine Program.Makes.bind ?_ fun _ => trivial
          refine (makes_ask trivial).bind fun _ => ?_
          split
          · trivial
          · exact (makes_ask trivial).bind fun _ => trivial

theorem makes_createTopic_own (good : EngineCall → Prop) (engine : LogConfig) (name : TopicName)
    (partitions : Nat) (retention : RetentionPolicy) (lists : good (.store .topics))
    (creates : ∀ config partitions, TopicConfig.new name partitions retention = .ok config →
      good (.store (.createTopic config)))
    (publishes : ∀ event, good (.publish event)) :
    (engine.createTopic name partitions retention).Makes good := by
  unfold LogConfig.createTopic
  dsimp only
  split
  · trivial
  rename_i config built
  refine (makes_storeCall (makes_ask lists)).bind fun listed => ?_
  cases listed with
  | error reason => trivial
  | ok existing =>
      dsimp only
      split
      · trivial
      refine (makes_storeCall (makes_ask (creates config _ built))).bind fun created => ?_
      rcases created with _ | ⟨_ | _⟩
      · trivial
      · trivial
      · exact (makes_ask (publishes _)).bind fun _ => trivial

theorem makes_createTopic (good : EngineCall → Prop) (engine : LogConfig) (name : TopicName)
    (partitions : Nat) (retention : RetentionPolicy) (lists : good (.store .topics))
    (creates : ∀ config, Issued (.createTopic config) → good (.store (.createTopic config)))
    (publishes : ∀ event, good (.publish event)) :
    (engine.createTopic name partitions retention).Makes good := by
  apply makes_createTopic_own good engine name partitions retention lists _ publishes
  intro config count built
  apply creates config
  obtain ⟨rfl, _⟩ := TopicConfig.new_eq built
  exact built

theorem makes_fetch (engine : LogConfig) (topic : TopicName) (partition start max : Nat) :
    (engine.fetch topic partition start max).Makes EngineCall.Issued := by
  refine (makes_requireTopic topic).bind fun required => ?_
  cases required with
  | error reason => trivial
  | ok count =>
      dsimp only
      split
      · trivial
      · exact makes_storeCall (makes_ask trivial)

end ConnectForge
