import ConnectForge.Core.SinkRounds

namespace ConnectForge

open Interaction

/-! What a dead letter says about the deliveries before it, and what becomes of
a batch when the letter cannot be stored. -/

/-- The answer to a delivery of the record at an offset. -/
def SinkEvent.answerFor (offset : Nat) : SinkEvent → Option (Except PortError Unit)
  | .delivered records answer =>
      if records.any fun record => record.offset == offset then some answer else none
  | .fetched _ _ => none
  | .deadLettered _ _ => none
  | .saved _ _ => none

/-- The answers to the deliveries of the record at an offset, in order. -/
def answersFor (offset : Nat) (events : List SinkEvent) : List (Except PortError Unit) :=
  events.filterMap (SinkEvent.answerFor offset)

theorem answersFor_append (offset : Nat) (first second : List SinkEvent) :
    answersFor offset (first ++ second) = answersFor offset first ++ answersFor offset second :=
  List.filterMap_append

theorem answersFor_same (record : Record) (given : List (Except PortError Unit)) :
    answersFor record.offset (given.map (.delivered [record])) = given := by
  induction given with
  | nil => rfl
  | cons answer given ih =>
      have head : SinkEvent.answerFor record.offset (.delivered [record] answer) = some answer := by
        simp [SinkEvent.answerFor]
      rw [List.map_cons, answersFor, List.filterMap_cons_some head]
      exact congrArg _ ih

theorem answersFor_other {record : Record} {offset : Nat} (other : record.offset ≠ offset)
    (given : List (Except PortError Unit)) :
    answersFor offset (given.map (.delivered [record])) = [] := by
  rw [answersFor, List.filterMap_eq_nil_iff]
  intro event member
  obtain ⟨answer, _, rfl⟩ := List.mem_map.mp member
  simp [SinkEvent.answerFor, other]

theorem not_letter_delivered {record : Record} {given : List (Except PortError Unit)}
    {letter : DeadLetterRecord} {stored : Except PortError Unit} :
    SinkEvent.deadLettered letter stored ∉ given.map (.delivered [record]) := by
  intro member
  obtain ⟨_, _, impossible⟩ := List.mem_map.mp member
  cases impossible

namespace Deliveries

variable {runtime : SinkRuntime} {lost : DeadLetterRecord → Prop} {records : List Record}
  {events : List SinkEvent} {start : Nat}

theorem answersFor_below (deliveries : Deliveries runtime lost records events)
    (numbered : Numbered start records) {offset : Nat} (below : offset < start) :
    answersFor offset events = [] := by
  induction deliveries generalizing start with
  | nil => rfl
  | delivered tries more ih =>
      obtain ⟨here, later⟩ := numbered_cons.mp numbered
      rw [answersFor_append, answersFor_other (by omega), ih later (by omega), List.append_nil]
  | deadLettered tries more ih =>
      obtain ⟨here, later⟩ := numbered_cons.mp numbered
      rw [answersFor_append, answersFor_other (by omega)]
      exact ih later (by omega)
  | stopped tries loses =>
      obtain ⟨here, later⟩ := numbered_cons.mp numbered
      rw [answersFor_append, answersFor_other (by omega)]
      rfl

/-- A letter carries the last answer to the deliveries of its record, and the
number of attempts that was configured. -/
theorem letter (deliveries : Deliveries runtime lost records events)
    (numbered : Numbered start records) {letter : DeadLetterRecord} {stored : Except PortError Unit}
    (member : .deadLettered letter stored ∈ events) :
    start ≤ letter.offset ∧ letter.attempts = Nat.max runtime.config.maxAttempts 1 ∧
      ∃ reason, letter.reason = reason.toText ∧
        runtime.Tries (answersFor letter.offset events) (.error reason) := by
  induction deliveries generalizing start with
  | nil => cases member
  | @delivered record rest given events tries more ih =>
      obtain ⟨here, later⟩ := numbered_cons.mp numbered
      rcases List.mem_append.mp member with impossible | member
      · exact absurd impossible not_letter_delivered
      · obtain ⟨above, attempts, reason, same, found⟩ := ih later member
        rw [answersFor_append, answersFor_other (by omega)]
        exact ⟨by omega, attempts, reason, same, found⟩
  | @deadLettered record rest given reason failedAt events tries more ih =>
      obtain ⟨here, later⟩ := numbered_cons.mp numbered
      rcases List.mem_append.mp member with impossible | member
      · exact absurd impossible not_letter_delivered
      rcases List.mem_cons.mp member with same | member
      · cases same
        have silent : answersFor record.offset events = [] := more.answersFor_below later (by omega)
        refine ⟨Nat.le_of_eq here.symm, rfl, reason, rfl, ?_⟩
        change runtime.Tries (answersFor record.offset _) _
        rw [answersFor_append, answersFor_same, answersFor, List.filterMap_cons_none rfl]
        change runtime.Tries (given ++ answersFor record.offset events) _
        rw [silent, List.append_nil]
        exact tries
      · obtain ⟨above, attempts, reason, same, found⟩ := ih later member
        rw [answersFor_append, answersFor_other (by omega)]
        exact ⟨by omega, attempts, reason, same, found⟩
  | @stopped record rest given reason failedAt failure tries loses =>
      obtain ⟨here, later⟩ := numbered_cons.mp numbered
      rcases List.mem_append.mp member with impossible | member
      · exact absurd impossible not_letter_delivered
      cases List.mem_singleton.mp member
      refine ⟨Nat.le_of_eq here.symm, rfl, reason, rfl, ?_⟩
      change runtime.Tries (answersFor record.offset _) _
      rw [answersFor_append, answersFor_same]
      exact (List.append_nil given).symm ▸ tries

end Deliveries

def Quiet (events : List SinkEvent) : Prop :=
  ∀ event ∈ events, (∀ offset, event.answerFor offset = none) ∧
    ∀ letter stored, event ≠ .deadLettered letter stored

theorem quiet_nil : Quiet [] := List.forall_mem_nil _

theorem Quiet.answersFor {events : List SinkEvent} (quiet : Quiet events) (offset : Nat) :
    answersFor offset events = [] :=
  List.filterMap_eq_nil_iff.mpr fun event member => (quiet event member).1 offset

theorem Quiet.no_letter {events : List SinkEvent} (quiet : Quiet events) {letter : DeadLetterRecord}
    {stored : Except PortError Unit} : .deadLettered letter stored ∉ events :=
  fun member => (quiet _ member).2 letter stored rfl

theorem quiet_saved (offset : Nat) (saves : List (Except PortError Unit)) :
    Quiet (saves.map (.saved offset)).reverse := by
  intro event member
  obtain ⟨answer, _, rfl⟩ := List.mem_map.mp (List.mem_reverse.mp member)
  refine ⟨fun _ => rfl, ?_⟩
  intro letter stored impossible
  cases impossible

theorem quiet_fetched (start : Nat) (seen : List Nat) :
    Quiet (seen.map (.fetched start)).reverse := by
  intro event member
  obtain ⟨retained, _, rfl⟩ := List.mem_map.mp (List.mem_reverse.mp member)
  refine ⟨fun _ => rfl, ?_⟩
  intro letter stored impossible
  cases impossible

theorem Quiet.append {first second : List SinkEvent} (left : Quiet first) (right : Quiet second) :
    Quiet (first ++ second) := by
  intro event member
  rcases List.mem_append.mp member with here | there
  · exact left event here
  · exact right event there

section Rounds

variable {runtime : SinkRuntime} {world : SinkWorld} {result : Except CoreError DeliveryReport}
  {round : Round}

theorem round_deliveries
    (ended : Ends (Watched runtime) runtime.runOnce (.start world) result round) :
    ∃ opening handed closing, round.world.trace = (opening ++ handed ++ closing).reverse ++ world.trace ∧
      Quiet opening ∧ Quiet closing ∧
      (handed = [] ∨ ∃ first records, Numbered first records ∧
        Deliveries runtime (fun _ => True) records handed) := by
  rcases ends_runOnce id ended with idles | ⟨read, reads, processed⟩
  · obtain ⟨seen, trace⟩ := idles.trace
    refine ⟨_, [], [], ?_, quiet_fetched world.position seen, quiet_nil, .inl rfl⟩
    rw [trace, List.append_nil, List.append_nil, List.reverse_reverse]
  obtain ⟨retained, fetched⟩ := reads.trace
  obtain ⟨first, _, numbered⟩ := reads.numbered
  obtain ⟨answer, committed, early, rest⟩ := ends_processBatch reads.nonempty processed
  obtain ⟨_, saves, saved⟩ := ends_commitUnder id early
  have opened : Quiet ((.fetched world.position retained ::
      (saves.map (SinkEvent.saved (nextAfter read.batch world.position))).reverse) : List SinkEvent) :=
    (quiet_fetched world.position [retained]).append (quiet_saved _ saves)
  have reaches : committed.world.trace = (.fetched world.position retained ::
      (saves.map (SinkEvent.saved (nextAfter read.batch world.position))).reverse).reverse ++
        world.trace := by
    rw [saved, fetched, List.reverse_cons, List.reverse_reverse, List.append_assoc]
    rfl
  rcases rest with ⟨_, _, _, rfl⟩ | ⟨counts, handled, _, delivers, last⟩
  · exact ⟨_, [], [], by rw [List.append_nil, List.append_nil]; exact reaches, opened,
      quiet_nil, .inl rfl⟩
  obtain ⟨events, adds, deliveries⟩ := ends_deliverAll id (fun _ => True) (fun _ _ => trivial) rfl delivers
  rcases last with ⟨_, _, _, rfl⟩ | ⟨_, late, _⟩
  · refine ⟨_, events, [], ?_, opened, quiet_nil,
      .inr ⟨first, _, numbered, deliveries⟩⟩
    rw [adds.trace, reaches, List.append_nil, List.reverse_append, List.append_assoc]
  · obtain ⟨_, more, ended⟩ := ends_commitUnder id late
    refine ⟨_, events, _, ?_, opened, quiet_saved (nextAfter read.batch world.position) more,
      .inr ⟨first, _, numbered, deliveries⟩⟩
    rw [ended, adds.trace, reaches, List.reverse_append, List.reverse_append, List.reverse_reverse,
      List.append_assoc, List.append_assoc]

/-- A dead letter reports the deliveries of its record exactly when none but
the last one that is allowed failed for good. -/
theorem letter_reports
    (ended : Ends (Watched runtime) runtime.runOnce (.start world) result round) :
    ∃ events, round.world.trace = events.reverse ++ world.trace ∧
      ∀ letter stored, .deadLettered letter stored ∈ events →
        ((letter.attempts = (answersFor letter.offset events).length ∧
            ∃ reason, (answersFor letter.offset events).getLast? = some (.error reason) ∧
              letter.reason = reason.toText) ↔
          ∀ reason, .error reason ∈
            (answersFor letter.offset events).take (Nat.max runtime.config.maxAttempts 1 - 1) →
              reason.isRetryable = true) := by
  obtain ⟨opening, handed, closing, trace, before, after, delivered⟩ := round_deliveries ended
  refine ⟨_, trace, ?_⟩
  intro letter stored member
  have inside : .deadLettered letter stored ∈ handed := by
    rcases List.mem_append.mp member with member | impossible
    · rcases List.mem_append.mp member with impossible | inside
      · exact absurd impossible before.no_letter
      · exact inside
    · exact absurd impossible after.no_letter
  have given : answersFor letter.offset (opening ++ handed ++ closing) =
      answersFor letter.offset handed := by
    rw [answersFor_append, answersFor_append, before.answersFor, after.answersFor, List.nil_append,
      List.append_nil]
  rcases delivered with rfl | ⟨first, records, numbered, deliveries⟩
  · cases inside
  obtain ⟨_, attempts, reason, same, tries⟩ := deliveries.letter numbered inside
  rw [given, ← tries.exhausted rfl, attempts]
  have positive : 1 ≤ Nat.max runtime.config.maxAttempts 1 := Nat.le_max_right _ _
  constructor
  · rintro ⟨count, _⟩
    omega
  · intro full
    exact ⟨by omega, reason, tries.getLast?, same⟩

/-- A record the sink refuses for good at once: its letter counts three
attempts. -/
theorem letter_overstates :
    ∃ (runtime : SinkRuntime) (log : PartitionLog) (result : Except CoreError DeliveryReport)
        (round : Round) (events : List SinkEvent) (letter : DeadLetterRecord),
      runtime.config = { guarantee := .atLeastOnce, maxAttempts := 3, batchSize := 500 } ∧
      Ends (Watched runtime) runtime.runOnce (.start (.fresh log none)) result round ∧
      round.world.trace = events.reverse ∧ .deadLettered letter (.ok ()) ∈ events ∧
      letter.attempts = 3 ∧ (answersFor letter.offset events).length = 1 := by
  let runtime := plainSink { guarantee := .atLeastOnce, maxAttempts := 3, batchSize := 500 }
  let log := plainLog 1
  have ended := Ends.run (watching_watched (reliable_answered runtime
    (fun _ => .error (.permanent "bad record")) .epoch)) runtime.runOnce (.start (.fresh log none))
  exact ⟨runtime, log, _, _, _, runtime.letter (plainRecord 0) "permanent failure: bad record" .epoch, rfl, ended,
    (List.reverse_reverse _).symm, .tail _ (.tail _ (.head _)), rfl, rfl⟩

/-- A record the sink keeps failing on: its letter counts the three attempts. -/
theorem letter_reports_transient :
    ∃ (runtime : SinkRuntime) (log : PartitionLog) (result : Except CoreError DeliveryReport)
        (round : Round) (events : List SinkEvent) (letter : DeadLetterRecord),
      runtime.config = { guarantee := .atLeastOnce, maxAttempts := 3, batchSize := 500 } ∧
      Ends (Watched runtime) runtime.runOnce (.start (.fresh log none)) result round ∧
      round.world.trace = events.reverse ∧ .deadLettered letter (.ok ()) ∈ events ∧
      letter.attempts = (answersFor letter.offset events).length := by
  let runtime := plainSink { guarantee := .atLeastOnce, maxAttempts := 3, batchSize := 500 }
  let log := plainLog 1
  have ended := Ends.run (watching_watched (reliable_answered runtime
    (fun _ => .error (.transient "busy")) .epoch)) runtime.runOnce (.start (.fresh log none))
  obtain ⟨events, trace, reports⟩ := letter_reports ended
  have same : events = _ := (List.reverse_eq_iff.mp ((List.append_nil _).symm.trans trace.symm))
  have member : .deadLettered (runtime.letter (plainRecord 0) "transient failure: busy" .epoch) (.ok ()) ∈ events := by
    rw [same]
    exact .tail _ (.tail _ (.tail _ (.tail _ (.head _))))
  refine ⟨runtime, log, _, _, events, _, rfl, ended, trace.trans (List.append_nil _), member,
    ((reports _ _ member).mpr ?_).1⟩
  intro reason given
  rw [same] at given
  rcases given with _ | ⟨_, _ | ⟨_, impossible⟩⟩
  · rfl
  · rfl
  · cases impossible

end Rounds

/-! What an at-most-once sink drops without a crash. -/

/-- A store that reports a failed save has stored nothing, and a letter that
cannot be stored is that of the batch's last record. -/
def Spares : (request : SinkCall) → Round → request.Answer → Round → Prop
  | .save _, before, answer, after => match answer with
    | .ok _ => True
    | .error _ => after.world.persisted = before.world.persisted
  | .deadLetter letter, before, answer, _ => match answer with
    | .ok _ => True
    | .error _ => ∀ record ∈ before.batch, record.offset ≤ letter.offset
  | _, _, _, _ => True

def Spared (runtime : SinkRuntime) (request : SinkCall) (before : Round) (answer : request.Answer)
    (after : Round) : Prop :=
  Watched runtime request before answer after ∧ Spares request before answer after

def Rounds (answers : (request : SinkCall) → Round → request.Answer → Round → Prop)
    (runtime : SinkRuntime) : SinkWorld → SinkWorld → Prop :=
  Relation.ReflTransGen fun world after =>
    ∃ result batch, Ends answers runtime.runOnce (.start world) result ⟨after, batch⟩

/-- A letter that could not be stored ends the loop, but not before its own
record was delivered. -/
theorem Deliveries.reach_all {runtime : SinkRuntime} {lost : DeadLetterRecord → Prop}
    {records : List Record} {events : List SinkEvent} {start : Nat}
    (deliveries : Deliveries runtime lost records events) (numbered : Numbered start records)
    (last : ∀ letter, lost letter → ∀ record ∈ records, record.offset ≤ letter.offset) :
    ∀ record ∈ records, ∃ answer, .delivered [record] answer ∈ events := by
  have tried : ∀ {record : Record} {given result}, runtime.Tries given result →
      ∃ answer, .delivered [record] answer ∈ given.map (SinkEvent.delivered [record]) := by
    intro record given result tries
    obtain ⟨answer, member⟩ := List.exists_mem_of_ne_nil given tries.nonempty
    exact ⟨answer, List.mem_map_of_mem member⟩
  induction deliveries generalizing start with
  | nil => exact fun record member => by cases member
  | delivered tries more ih =>
      intro record member
      rcases List.mem_cons.mp member with rfl | later
      · obtain ⟨answer, here⟩ := tried tries
        exact ⟨answer, List.mem_append_left _ here⟩
      · obtain ⟨answer, there⟩ := ih (numbered_cons.mp numbered).2
          (fun letter loses other inRest => last letter loses other (.tail _ inRest)) record later
        exact ⟨answer, List.mem_append_right _ there⟩
  | deadLettered tries more ih =>
      intro record member
      rcases List.mem_cons.mp member with rfl | later
      · obtain ⟨answer, here⟩ := tried tries
        exact ⟨answer, List.mem_append_left _ here⟩
      · obtain ⟨answer, there⟩ := ih (numbered_cons.mp numbered).2
          (fun letter loses other inRest => last letter loses other (.tail _ inRest)) record later
        exact ⟨answer, List.mem_append_right _ (.tail _ there)⟩
  | @stopped head rest given reason failedAt failure tries loses =>
      intro record member
      rcases List.mem_cons.mp member with rfl | later
      · obtain ⟨answer, here⟩ := tried tries
        exact ⟨answer, List.mem_append_left _ here⟩
      · obtain ⟨here, others⟩ := numbered_cons.mp numbered
        have above := (others.bounds later).1
        have below : record.offset ≤ head.offset := last _ loses record member
        omega

section AtMostOnce

variable {runtime : SinkRuntime} {world : SinkWorld} {result : Except CoreError DeliveryReport}
  {round : Round}

/-- The cursor, once it is set, is the stored checkpoint. -/
def SinkWorld.InStep (world : SinkWorld) : Prop :=
  ∀ cursor, world.cursor = some cursor → cursor = world.checkpoint

theorem SinkWorld.InStep.position (holds : world.InStep) : world.position = world.checkpoint := by
  unfold SinkWorld.position
  cases cached : world.cursor with
  | none => rfl
  | some cursor => exact holds cursor cached

/-- A round after which the cursor is in step and nothing it read is lost. -/
structure Complete (round : Round) : Prop where
  inStep : round.world.InStep
  delivered : ∀ record ∈ round.batch, record.offset < round.world.checkpoint →
    ∃ answer, .delivered [record] answer ∈ round.world.trace

theorem Idles.complete (holds : world.InStep) (idles : Idles world round) : Complete round := by
  have same : round.world.checkpoint = world.checkpoint := congrArg (·.getD Offset.zero) idles.persisted
  refine ⟨?_, ?_⟩
  · intro cursor here
    rcases idles.cursor with kept | set
    · exact (holds cursor (kept.symm.trans here)).trans same.symm
    · rw [← Option.some.inj (set.symm.trans here), holds.position, same]
  · intro record member
    rw [idles.batch] at member
    cases member

theorem Reads.delivered {read committed : Round} {counts : Except CoreError (Nat × Nat)}
    (reads : Reads world read) (same : committed.batch = read.batch)
    (inStep : committed.world.InStep)
    (delivers : Ends (Spared runtime) (runtime.deliverAll read.batch 0 0) committed counts round) :
    Complete round := by
  obtain ⟨first, _, numbered⟩ := reads.numbered
  have loses : ∀ {letter failure} {before after : Round}, before.batch = read.batch →
      Spared runtime (.deadLetter letter) before (.error failure) after →
      ∀ record ∈ read.batch, record.offset ≤ letter.offset := by
    intro letter failure before after reading spared
    rw [← reading]
    exact spared.2
  obtain ⟨events, adds, deliveries⟩ := ends_deliverAll And.left
    (fun letter => ∀ record ∈ read.batch, record.offset ≤ letter.offset) loses same delivers
  refine ⟨?_, ?_⟩
  · intro cursor here
    rw [inStep cursor (adds.cursor.symm.trans here)]
    exact congrArg (·.getD Offset.zero) adds.persisted.symm
  · intro record member _
    rw [adds.batch, same] at member
    obtain ⟨answer, delivered⟩ := deliveries.reach_all numbered (fun _ last => last) record member
    exact ⟨answer, adds.mem delivered⟩

theorem round_complete (guarantee : runtime.config.guarantee = .atMostOnce) (holds : world.InStep)
    (ended : Ends (Spared runtime) runtime.runOnce (.start world) result round) : Complete round := by
  have other : runtime.config.guarantee ≠ .atLeastOnce := by rw [guarantee]; decide
  rcases ends_runOnce And.left ended with idles | ⟨read, reads, processed⟩
  · exact idles.complete holds
  obtain ⟨first, above, numbered⟩ := reads.numbered
  obtain ⟨answer, committed, early, rest⟩ := ends_processBatch reads.nonempty processed
  rw [runtime.commitUnder_same guarantee] at early
  obtain ⟨saves, saved, spared, outcome⟩ := ends_commitCheckpoint And.left early
  obtain ⟨batch, cursor, _, stored⟩ := spared.1.save
  rcases outcome with ⟨reason, rfl, rfl, rfl⟩ | ⟨rfl, rfl, adds⟩
  · -- Nothing was stored, so the batch lies above the checkpoint.
    rcases rest with ⟨_, _, _, rfl⟩ | ⟨_, _, impossible, _⟩
    · have kept : round.world.persisted = world.persisted := Eq.trans spared.2 reads.persisted
      have same : round.world.checkpoint = world.position := by
        rw [holds.position]
        exact congrArg (·.getD Offset.zero) kept
      refine ⟨?_, ?_⟩
      · intro position here
        rw [same]
        exact Option.some.inj (here.symm.trans (cursor.trans reads.cursor))
      · intro record member below
        rw [batch] at member
        have bound := (numbered.bounds member).1
        omega
    · cases impossible
  · rcases rest with ⟨_, impossible, _⟩ | ⟨counts, handled, _, delivers, last⟩
    · cases impossible
    have inStep : committed.world.InStep := by
      intro position here
      have next := Option.some.inj (here.symm.trans adds.cursor)
      have checkpoint := congrArg (·.getD Offset.zero) (adds.persisted.trans (stored rfl))
      exact next.trans checkpoint.symm
    have complete := reads.delivered (adds.batch.trans batch) inStep delivers
    rcases last with ⟨_, _, _, rfl⟩ | ⟨_, late, _⟩
    · exact complete
    · rw [runtime.commitUnder_other other] at late
      obtain ⟨_, rfl⟩ := ends_done late
      exact complete

theorem Rounds.inStep (guarantee : runtime.config.guarantee = .atMostOnce) {log : PartitionLog}
    {persisted : Option Nat} (reached : Rounds (Spared runtime) runtime (.fresh log persisted) world) :
    world.InStep := by
  induction reached with
  | refl => exact fun cursor impossible => by cases impossible
  | tail _ step ih =>
      obtain ⟨result, batch, ended⟩ := step
      exact (round_complete guarantee ih ended).inStep

/-- Without a crash an at-most-once sink delivers what it has committed, as long
as failed saves store nothing and letters are only lost at the end of a batch. -/
theorem committed_delivered (guarantee : runtime.config.guarantee = .atMostOnce) (log : PartitionLog)
    (persisted : Option Nat)
    (reached : Rounds (Spared runtime) runtime (.fresh log persisted) world)
    (ended : Ends (Spared runtime) runtime.runOnce (.start world) result round) :
    ∀ record ∈ round.batch, record.offset < round.world.checkpoint →
      ∃ answer, .delivered [record] answer ∈ round.world.trace :=
  (round_complete guarantee (Rounds.inStep guarantee reached) ended).delivered

/-- A round over two records that are refused for good: both were delivered. -/
theorem committed_delivered_refused :
    ∃ (runtime : SinkRuntime) (log : PartitionLog) (result : Except CoreError DeliveryReport)
        (round : Round),
      runtime.config.guarantee = .atMostOnce ∧
      Ends (Spared runtime) runtime.runOnce (.start (.fresh log none)) result round ∧
      round.batch.length = 2 ∧ round.world.checkpoint = 2 ∧
      ∀ record ∈ round.batch, ∃ answer, .delivered [record] answer ∈ round.world.trace := by
  let runtime := plainSink { guarantee := .atMostOnce, maxAttempts := 3, batchSize := 500 }
  let log := plainLog 2
  have answered := reliable_answered runtime (fun _ => .error (.permanent "bad record")) .epoch
  have possible : ∀ request round, Spared runtime request round
      (watching (reliable runtime (fun _ => .error (.permanent "bad record")) .epoch) request round).1
      (watching (reliable runtime (fun _ => .error (.permanent "bad record")) .epoch) request round).2 := by
    intro request round
    refine ⟨watching_watched answered request round, ?_⟩
    cases request <;> trivial
  have ended := Ends.run possible runtime.runOnce (.start (.fresh log none))
  refine ⟨runtime, log, _, _, rfl, ended, rfl, rfl, ?_⟩
  intro found member
  apply committed_delivered rfl log none .refl ended found member
  rcases member with _ | ⟨_, _ | ⟨_, impossible⟩⟩
  · exact Nat.zero_lt_two
  · exact Nat.one_lt_two
  · cases impossible

/-- A world in which deliveries fail for good and no letter can be stored. -/
def refusing (runtime : SinkRuntime) : (request : SinkCall) → SinkWorld → request.Answer × SinkWorld
  | .deadLetter letter, world =>
      (.error (.unavailable "queue down"),
        world.record (.deadLettered letter (.error (.unavailable "queue down"))))
  | request, world => reliable runtime (fun _ => .error (.permanent "bad record")) .epoch request world

/-- The letter of the first of two records is lost: the second is below the
stored checkpoint and was never delivered. -/
theorem committed_dropped :
    ∃ (runtime : SinkRuntime) (log : PartitionLog) (result : Except CoreError DeliveryReport)
        (round : Round),
      runtime.config.guarantee = .atMostOnce ∧
      Ends (Watched runtime) runtime.runOnce (.start (.fresh log none)) result round ∧
      ∃ record ∈ round.batch, record.offset < round.world.checkpoint ∧
        ∀ records answer, .delivered records answer ∈ round.world.trace → record ∉ records := by
  let runtime := plainSink { guarantee := .atMostOnce, maxAttempts := 3, batchSize := 500 }
  let log := plainLog 2
  have possible : ∀ request world, Answered runtime request world (refusing runtime request world).1
      (refusing runtime request world).2 := by
    intro request world
    cases request
    case deadLetter letter => exact rfl
    all_goals exact reliable_answered runtime (fun _ => .error (.permanent "bad record")) .epoch _ world
  have ended := Ends.run (watching_watched possible) runtime.runOnce (.start (.fresh log none))
  refine ⟨runtime, log, _, _, rfl, ended, plainRecord 1, .tail _ (.head _), Nat.one_lt_two, ?_⟩
  intro records answer delivered
  rcases delivered with _ | ⟨_, _ | ⟨_, _ | ⟨_, _ | ⟨_, impossible⟩⟩⟩⟩
  · intro member
    cases List.mem_singleton.mp member
  · cases impossible

end AtMostOnce

end ConnectForge
