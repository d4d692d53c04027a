import ConnectForge.Core.SinkWorld

namespace ConnectForge

open Interaction

/-! What one round of a sink runtime does, event by event. -/

/-- A world in the middle of a round, with the records the round has read. -/
structure Round where
  world : SinkWorld
  batch : List Record

def Round.start (world : SinkWorld) : Round := ⟨world, []⟩

def batchAfter : (request : SinkCall) → request.Answer → List Record → List Record
  | .fetch _ _ _ _, answer, batch => match answer with
    | .ok result => result.records
    | .error _ => batch
  | .readCursor, _, batch => batch
  | .writeCursor _, _, batch => batch
  | .load _ _ _, _, batch => batch
  | .save _, _, batch => batch
  | .deliver _, _, batch => batch
  | .deadLetter _, _, batch => batch
  | .now, _, batch => batch
  | .addProcessed, _, batch => batch
  | .addDead, _, batch => batch
  | .readProcessed, _, batch => batch
  | .readDead, _, batch => batch

/-- The answers in a world where the log moves before every call. -/
def Watched (runtime : SinkRuntime) (request : SinkCall) (before : Round) (answer : request.Answer)
    (after : Round) : Prop :=
  ∃ moved, before.world.Moves moved ∧ Answered runtime request moved answer after.world ∧
    after.batch = batchAfter request answer before.batch

/-- A world that answers every call in one way, with the records the round has
read. -/
def watching (handle : (request : SinkCall) → SinkWorld → request.Answer × SinkWorld)
    (request : SinkCall) (round : Round) : request.Answer × Round :=
  ((handle request round.world).1, {
    world := (handle request round.world).2
    batch := batchAfter request (handle request round.world).1 round.batch })

theorem watching_watched {runtime : SinkRuntime}
    {handle : (request : SinkCall) → SinkWorld → request.Answer × SinkWorld}
    (possible : ∀ request world,
      Answered runtime request world (handle request world).1 (handle request world).2)
    (request : SinkCall) (round : Round) :
    Watched runtime request round (watching handle request round).1
      (watching handle request round).2 :=
  ⟨round.world, .refl _, possible request round.world, rfl⟩

/-- The events of a stretch of a round that leaves the checkpoints alone, in
order. -/
structure Adds (before : Round) (events : List SinkEvent) (after : Round) : Prop where
  trace : after.world.trace = events.reverse ++ before.world.trace
  persisted : after.world.persisted = before.world.persisted
  cursor : after.world.cursor = before.world.cursor
  batch : after.batch = before.batch

namespace Adds

variable {first second third : Round} {events more : List SinkEvent}

theorem refl (round : Round) : Adds round [] round := ⟨rfl, rfl, rfl, rfl⟩

theorem trans (left : Adds first events second) (right : Adds second more third) :
    Adds first (events ++ more) third := by
  refine ⟨?_, right.persisted.trans left.persisted, right.cursor.trans left.cursor,
    right.batch.trans left.batch⟩
  rw [right.trace, left.trace, List.reverse_append, List.append_assoc]

theorem mem (adds : Adds first events second) {event : SinkEvent} (member : event ∈ events) :
    event ∈ second.world.trace := by
  rw [adds.trace]
  exact List.mem_append_left _ (List.mem_reverse.mpr member)

end Adds

section Calls

variable {runtime : SinkRuntime} {before after : Round}

theorem Adds.moved {moved world : SinkWorld} {events : List SinkEvent}
    (moves : before.world.Moves moved) (trace : world.trace = events.reverse ++ moved.trace)
    (persisted : world.persisted = moved.persisted) (cursor : world.cursor = moved.cursor) :
    Adds before events ⟨world, before.batch⟩ := by
  rw [moves.rest] at trace persisted cursor
  exact ⟨trace, persisted, cursor, rfl⟩

theorem Watched.deliver {records : List Record} {answer : Except PortError Unit}
    (watched : Watched runtime (.deliver records) before answer after) :
    Adds before [.delivered records answer] after := by
  obtain ⟨world, batch⟩ := after
  obtain ⟨moved, moves, rfl, rfl⟩ := watched
  exact Adds.moved moves rfl rfl rfl

theorem Watched.deadLetter {letter : DeadLetterRecord} {answer : Except PortError Unit}
    (watched : Watched runtime (.deadLetter letter) before answer after) :
    Adds before [.deadLettered letter answer] after := by
  obtain ⟨world, batch⟩ := after
  obtain ⟨moved, moves, rfl, rfl⟩ := watched
  exact Adds.moved moves rfl rfl rfl

theorem Watched.now {time : DateTime} (watched : Watched runtime .now before time after) :
    Adds before [] after := by
  obtain ⟨world, batch⟩ := after
  obtain ⟨moved, moves, rfl, rfl⟩ := watched
  exact Adds.moved moves rfl rfl rfl

theorem Watched.addProcessed {answer : Unit}
    (watched : Watched runtime .addProcessed before answer after) : Adds before [] after := by
  obtain ⟨world, batch⟩ := after
  obtain ⟨moved, moves, rfl, rfl⟩ := watched
  exact Adds.moved moves rfl rfl rfl

theorem Watched.addDead {answer : Unit} (watched : Watched runtime .addDead before answer after) :
    Adds before [] after := by
  obtain ⟨world, batch⟩ := after
  obtain ⟨moved, moves, rfl, rfl⟩ := watched
  exact Adds.moved moves rfl rfl rfl

theorem Watched.readCursor {found : Option Nat}
    (watched : Watched runtime .readCursor before found after) :
    Adds before [] after ∧ found = before.world.cursor := by
  obtain ⟨world, batch⟩ := after
  obtain ⟨moved, moves, ⟨same, rfl⟩, rfl⟩ := watched
  refine ⟨Adds.moved moves rfl rfl rfl, ?_⟩
  rw [same, moves.rest]

theorem Watched.writeCursor {offset : Nat} {answer : Unit}
    (watched : Watched runtime (.writeCursor offset) before answer after) :
    Adds ⟨{ before.world with cursor := some offset }, before.batch⟩ [] after := by
  obtain ⟨world, batch⟩ := after
  obtain ⟨moved, moves, rfl, rfl⟩ := watched
  rw [moves.rest]
  exact ⟨rfl, rfl, rfl, rfl⟩

theorem Watched.load {found : Except PortError (Option Nat)}
    (watched : Watched runtime (.load runtime.id runtime.topic runtime.partition) before found after) :
    Adds before [] after ∧ ∀ value, found = .ok value → value = before.world.persisted := by
  obtain ⟨world, batch⟩ := after
  obtain ⟨moved, moves, ⟨rfl, loaded⟩, rfl⟩ := watched
  refine ⟨Adds.moved moves rfl rfl rfl, ?_⟩
  rintro value rfl
  rcases loaded with ⟨reason, impossible⟩ | exact
  · cases impossible
  · rw [Except.ok.inj (exact runtime.owns_own), moves.rest]

theorem Watched.save {offset : Nat} {answer : Except PortError Unit}
    (watched : Watched runtime (.save ⟨runtime.id, runtime.topic, runtime.partition, offset⟩)
      before answer after) :
    after.batch = before.batch ∧ after.world.cursor = before.world.cursor ∧
      after.world.trace = .saved offset answer :: before.world.trace ∧
      (answer = .ok () → after.world.persisted = some offset) := by
  obtain ⟨world, batch⟩ := after
  obtain ⟨moved, moves, effect, rfl⟩ := watched
  simp only [Answered, SinkWorld.saved, SinkRuntime.owns_own, ↓reduceIte] at effect
  rcases effect with rfl | ⟨reason, rfl, rfl⟩
  · refine ⟨rfl, ?_, ?_, fun _ => rfl⟩
    · rw [moves.rest]
      rfl
    · rw [moves.rest]
      rfl
  · refine ⟨rfl, ?_, ?_, fun impossible => by cases impossible⟩
    · rw [moves.rest]
      rfl
    · rw [moves.rest]
      rfl

theorem Watched.fetch {start max : Nat} {answer : Except PortError FetchResult}
    (watched : Watched runtime (.fetch runtime.topic runtime.partition start max) before answer after) :
    after.world.persisted = before.world.persisted ∧ after.world.cursor = before.world.cursor ∧
      ((∃ reason, answer = .error reason ∧ Adds before [] after) ∨
        ∃ result first retained, answer = .ok result ∧ after.batch = result.records ∧
          start ≤ first ∧ Numbered first result.records ∧
          after.world.trace = .fetched start retained :: before.world.trace) := by
  obtain ⟨world, batch⟩ := after
  obtain ⟨moved, moves, effect, rfl⟩ := watched
  rcases effect with ⟨reason, rfl, rfl⟩ | ⟨rfl, answered⟩
  · have adds : Adds before [] ⟨world, before.batch⟩ := Adds.moved moves rfl rfl rfl
    exact ⟨adds.persisted, adds.cursor, .inl ⟨reason, rfl, adds⟩⟩
  · rw [answered rfl rfl, moves.rest]
    exact ⟨rfl, rfl, .inr ⟨_, _, _, rfl, rfl, Nat.le_max_left _ _, moved.log.slice_numbered _ _, rfl⟩⟩

end Calls

def SinkRuntime.letter (runtime : SinkRuntime) (record : Record) (reason : String)
    (failedAt : DateTime) : DeadLetterRecord where
  connector := runtime.id
  topic := runtime.topic
  partition := runtime.partition
  offset := record.offset
  payload := record.payload
  reason
  attempts := Nat.max runtime.config.maxAttempts 1
  failedAt

/-- The answers to the deliveries of one record, and how they ended. -/
abbrev SinkRuntime.Tries (runtime : SinkRuntime) (given : List (Except PortError Unit))
    (result : Except PortError Unit) : Prop :=
  Attempts PortError.isRetryable (Nat.max runtime.config.maxAttempts 1 - 1) given result

/-- The events of handing over the records of a batch, in order.  The loop only
stops early at a letter that could not be stored, which is then `lost`. -/
inductive Deliveries (runtime : SinkRuntime) (lost : DeadLetterRecord → Prop) :
    List Record → List SinkEvent → Prop where
  | nil : Deliveries runtime lost [] []
  | delivered {record rest given events} (tries : runtime.Tries given (.ok ()))
      (more : Deliveries runtime lost rest events) :
      Deliveries runtime lost (record :: rest) (given.map (.delivered [record]) ++ events)
  | deadLettered {record rest given reason failedAt events}
      (tries : runtime.Tries given (.error reason)) (more : Deliveries runtime lost rest events) :
      Deliveries runtime lost (record :: rest) (given.map (.delivered [record]) ++
        .deadLettered (runtime.letter record reason.toText failedAt) (.ok ()) :: events)
  | stopped {record rest given reason failedAt failure}
      (tries : runtime.Tries given (.error reason))
      (loses : lost (runtime.letter record reason.toText failedAt)) :
      Deliveries runtime lost (record :: rest) (given.map (.delivered [record]) ++
        [.deadLettered (runtime.letter record reason.toText failedAt) (.error failure)])

def SinkWorld.position (world : SinkWorld) : Nat := world.cursor.getD world.checkpoint

structure Idles (world : SinkWorld) (after : Round) : Prop where
  batch : after.batch = []
  persisted : after.world.persisted = world.persisted
  cursor : after.world.cursor = world.cursor ∨ after.world.cursor = some world.position
  trace : ∃ seen : List Nat,
    after.world.trace = seen.map (.fetched world.position) ++ world.trace

structure Reads (world : SinkWorld) (read : Round) : Prop where
  nonempty : read.batch ≠ []
  numbered : ∃ first, world.position ≤ first ∧ Numbered first read.batch
  persisted : read.world.persisted = world.persisted
  cursor : read.world.cursor = some world.position
  trace : ∃ retained, read.world.trace = .fetched world.position retained :: world.trace

section Programs

variable {runtime : SinkRuntime}
  {answers : (request : SinkCall) → Round → request.Answer → Round → Prop} {before after : Round}

theorem ends_deliverOne
    (watched : ∀ {request before answer after}, answers request before answer after →
      Watched runtime request before answer after)
    {record : Record} {result : Except String Unit}
    (ended : Ends answers (runtime.deliverOne record) before result after) :
    ∃ given, Adds before (given.map (.delivered [record])) after ∧
      ((result = .ok () ∧ runtime.Tries given (.ok ())) ∨
        ∃ reason, result = .error reason.toText ∧ runtime.Tries given (.error reason)) := by
  obtain ⟨answer, middle, retried, rest⟩ := ends_bind ended
  obtain ⟨given, tries, adds⟩ := ends_retryIf
    (fun before given after => Adds before (given.map (.delivered [record])) after)
    (fun once => by
      obtain ⟨answer, later, answered, rest⟩ := ends_call once
      obtain ⟨rfl, rfl⟩ := ends_done rest
      exact (watched answered).deliver)
    (fun first second => first.trans second) retried
  cases answer with
  | ok value =>
      obtain ⟨rfl, rfl⟩ := ends_done rest
      exact ⟨given, adds, .inl ⟨rfl, tries⟩⟩
  | error reason =>
      obtain ⟨rfl, rfl⟩ := ends_done rest
      exact ⟨given, adds, .inr ⟨reason, rfl, tries⟩⟩

theorem ends_deadLetter
    (watched : ∀ {request before answer after}, answers request before answer after →
      Watched runtime request before answer after)
    {record : Record} {reason : String} {result : Except CoreError Unit}
    (ended : Ends answers (runtime.deadLetter record reason) before result after) :
    ∃ failedAt answer timed, Adds before [.deadLettered (runtime.letter record reason failedAt) answer]
        after ∧ timed.batch = before.batch ∧
      answers (.deadLetter (runtime.letter record reason failedAt)) timed answer after ∧
      result = answer.mapError .port := by
  obtain ⟨failedAt, timed, clocked, rest⟩ := ends_call ended
  obtain ⟨answer, stored, answered, rest⟩ := ends_call rest
  have first := (watched clocked).now
  have second := (watched answered).deadLetter
  cases answer with
  | ok value =>
      obtain ⟨rfl, rfl⟩ := ends_done rest
      exact ⟨failedAt, .ok value, timed, first.trans second, first.batch, answered, rfl⟩
  | error failure =>
      obtain ⟨rfl, rfl⟩ := ends_done rest
      exact ⟨failedAt, .error failure, timed, first.trans second, first.batch, answered, rfl⟩

/-- The loop over a batch: every record is tried, up to the first letter that
cannot be stored. -/
theorem ends_deliverAll
    (watched : ∀ {request before answer after}, answers request before answer after →
      Watched runtime request before answer after)
    (lost : DeadLetterRecord → Prop) {batch : List Record}
    (loses : ∀ {letter failure before after}, before.batch = batch →
      answers (.deadLetter letter) before (.error failure) after → lost letter)
    {records : List Record} {delivered dead : Nat} {result : Except CoreError (Nat × Nat)}
    (reading : before.batch = batch)
    (ended : Ends answers (runtime.deliverAll records delivered dead) before result after) :
    ∃ events, Adds before events after ∧ Deliveries runtime lost records events := by
  induction records generalizing before delivered dead with
  | nil =>
      obtain ⟨rfl, rfl⟩ := ends_done ended
      exact ⟨[], .refl _, .nil⟩
  | cons record rest ih =>
      obtain ⟨answer, tried, first, remaining⟩ := ends_bind ended
      obtain ⟨given, adds, ⟨rfl, tries⟩ | ⟨reason, rfl, tries⟩⟩ := ends_deliverOne watched first
      · obtain ⟨_, counted, answered, remaining⟩ := ends_call remaining
        have counts := (watched answered).addProcessed
        obtain ⟨events, more, deliveries⟩ :=
          ih ((counts.batch.trans adds.batch).trans reading) remaining
        exact ⟨_, adds.trans (counts.trans more), .delivered tries deliveries⟩
      · obtain ⟨stored, lettered, second, remaining⟩ := ends_bind remaining
        obtain ⟨failedAt, answer, timed, letters, same, answered, rfl⟩ := ends_deadLetter watched second
        cases answer with
        | error failure =>
            obtain ⟨_, rfl⟩ := ends_done remaining
            exact ⟨_, adds.trans letters,
              .stopped tries (loses ((same.trans adds.batch).trans reading) answered)⟩
        | ok value =>
            obtain ⟨_, counted, answered, remaining⟩ := ends_call remaining
            have counts := (watched answered).addDead
            obtain ⟨events, more, deliveries⟩ :=
              ih (((counts.batch.trans letters.batch).trans adds.batch).trans reading) remaining
            exact ⟨_, adds.trans (letters.trans (counts.trans more)), .deadLettered tries deliveries⟩

theorem ends_commitCheckpoint
    (watched : ∀ {request before answer after}, answers request before answer after →
      Watched runtime request before answer after)
    {offset : Nat} {result : Except CoreError Unit}
    (ended : Ends answers (runtime.commitCheckpoint offset) before result after) :
    ∃ answer saved, answers (.save ⟨runtime.id, runtime.topic, runtime.partition, offset⟩) before
        answer saved ∧
      ((∃ reason, answer = .error reason ∧ result = .error (.port reason) ∧ after = saved) ∨
        (answer = .ok () ∧ result = .ok () ∧
          Adds ⟨{ saved.world with cursor := some offset }, saved.batch⟩ [] after)) := by
  obtain ⟨answer, saved, answered, rest⟩ := ends_call ended
  refine ⟨answer, saved, answered, ?_⟩
  cases answer with
  | error reason =>
      obtain ⟨rfl, rfl⟩ := ends_done rest
      exact .inl ⟨reason, rfl, rfl, rfl⟩
  | ok value =>
      obtain ⟨_, written, answered, rest⟩ := ends_call rest
      obtain ⟨rfl, rfl⟩ := ends_done rest
      exact .inr ⟨rfl, rfl, (watched answered).writeCursor⟩

theorem ends_commitUnder
    (watched : ∀ {request before answer after}, answers request before answer after →
      Watched runtime request before answer after)
    {guarantee : DeliveryGuarantee} {offset : Nat} {result : Except CoreError Unit}
    (ended : Ends answers (runtime.commitUnder guarantee offset) before result after) :
    after.batch = before.batch ∧
      ∃ saves : List (Except PortError Unit),
        after.world.trace = saves.map (.saved offset) ++ before.world.trace := by
  unfold SinkRuntime.commitUnder at ended
  split at ended
  next =>
    obtain ⟨answer, saved, answered, rest⟩ := ends_commitCheckpoint watched ended
    obtain ⟨batch, _, trace, _⟩ := (watched answered).save
    rcases rest with ⟨_, _, _, rfl⟩ | ⟨_, _, adds⟩
    · exact ⟨batch, [answer], trace⟩
    · exact ⟨adds.batch.trans batch, [answer], adds.trace.trans trace⟩
  next =>
    obtain ⟨_, rfl⟩ := ends_done ended
    exact ⟨rfl, [], rfl⟩

theorem ends_resolveCheckpoint
    (watched : ∀ {request before answer after}, answers request before answer after →
      Watched runtime request before answer after)
    {result : Except CoreError Nat}
    (ended : Ends answers runtime.resolveCheckpoint before result after) :
    (∃ reason, result = .error reason ∧ Adds before [] after) ∨
      ∃ start, result = .ok start ∧ start = before.world.cursor.getD before.world.checkpoint ∧
        Adds ⟨{ before.world with cursor := some start }, before.batch⟩ [] after := by
  obtain ⟨cached, read, answered, rest⟩ := ends_call ended
  obtain ⟨reads, rfl⟩ := (watched answered).readCursor
  cases cached : before.world.cursor with
  | some cursor =>
      rw [cached] at rest
      obtain ⟨rfl, rfl⟩ := ends_done rest
      exact .inr ⟨cursor, rfl, rfl, reads.trace, reads.persisted, reads.cursor.trans cached, reads.batch⟩
  | none =>
      rw [cached] at rest
      obtain ⟨found, loaded, answered, rest⟩ := ends_call rest
      obtain ⟨loads, same⟩ := (watched answered).load
      cases found with
      | error reason =>
          obtain ⟨rfl, rfl⟩ := ends_done rest
          exact .inl ⟨_, rfl, reads.trans loads⟩
      | ok found =>
          obtain ⟨_, written, answered, rest⟩ := ends_call rest
          obtain ⟨rfl, rfl⟩ := ends_done rest
          have writes := (watched answered).writeCursor
          have earlier := reads.trans loads
          refine .inr ⟨_, rfl, ?_, writes.trace.trans ?_, writes.persisted.trans earlier.persisted,
            writes.cursor, writes.batch.trans earlier.batch⟩
          · rw [same found rfl, reads.persisted]
            rfl
          · exact congrArg _ earlier.trace

theorem ends_runOnce
    (watched : ∀ {request before answer after}, answers request before answer after →
      Watched runtime request before answer after)
    {world : SinkWorld} {result : Except CoreError DeliveryReport}
    (ended : Ends answers runtime.runOnce (.start world) result after) :
    Idles world after ∨
      ∃ read, Reads world read ∧
        Ends answers (runtime.processBatch world.position read.batch) read result after := by
  obtain ⟨resolved, positioned, first, rest⟩ := ends_bind ended
  rcases ends_resolveCheckpoint watched first with ⟨reason, rfl, adds⟩ | ⟨start, rfl, here, adds⟩
  · obtain ⟨_, rfl⟩ := ends_done rest
    exact .inl ⟨adds.batch, adds.persisted, .inl adds.cursor, [], adds.trace⟩
  · change start = world.position at here
    subst here
    obtain ⟨answer, read, answered, rest⟩ := ends_call rest
    obtain ⟨persisted, cursor, fetched⟩ := (watched answered).fetch
    have kept := persisted.trans adds.persisted
    have there := cursor.trans adds.cursor
    rcases fetched with ⟨reason, rfl, more⟩ | ⟨batch, first, retained, rfl, same, above, numbered, trace⟩
    · obtain ⟨_, rfl⟩ := ends_done rest
      exact .inl ⟨more.batch.trans adds.batch, kept, .inr there, [], (adds.trans more).trace⟩
    · have seen : read.world.trace = .fetched world.position retained :: world.trace := by
        rw [trace, adds.trace]
        rfl
      change Ends answers (runtime.processBatch world.position batch.records) read result after at rest
      rw [← same] at rest numbered
      by_cases empty : read.batch = []
      · rw [empty, runtime.processBatch_nil] at rest
        obtain ⟨_, rfl⟩ := ends_done rest
        exact .inl ⟨empty, kept, .inr there, [retained], seen⟩
      · exact .inr ⟨read, ⟨empty, ⟨first, above, numbered⟩, kept, there, retained, seen⟩, rest⟩

end Programs

/-- A round that goes on with its batch, in any world: it may commit, delivers,
and may commit. -/
theorem ends_processBatch {World : Type} {runtime : SinkRuntime}
    {answers : (request : SinkCall) → World → request.Answer → World → Prop} {before after : World}
    {start : Nat} {batch : List Record} {result : Except CoreError DeliveryReport}
    (nonempty : batch ≠ [])
    (ended : Ends answers (runtime.processBatch start batch) before result after) :
    ∃ answer committed, Ends answers (runtime.commitUnder .atMostOnce (nextAfter batch start)) before
        answer committed ∧
      ((∃ reason, answer = .error reason ∧ result = .error reason ∧ after = committed) ∨
        ∃ counts handled, answer = .ok () ∧
          Ends answers (runtime.deliverAll batch 0 0) committed counts handled ∧
          ((∃ reason, counts = .error reason ∧ result = .error reason ∧ after = handled) ∨
            ∃ last, Ends answers (runtime.commitUnder .atLeastOnce (nextAfter batch start)) handled
                last after ∧
              ∀ report, result = .ok report → report.polled = batch.length)) := by
  have filled : batch.isEmpty = false := by simpa using nonempty
  simp only [SinkRuntime.processBatch, filled, Bool.false_eq_true, ↓reduceIte] at ended
  obtain ⟨answer, committed, first, rest⟩ := ends_bind ended
  refine ⟨answer, committed, first, ?_⟩
  cases answer with
  | error reason =>
      obtain ⟨rfl, rfl⟩ := ends_done rest
      exact .inl ⟨reason, rfl, rfl, rfl⟩
  | ok value =>
      obtain ⟨counts, handled, second, rest⟩ := ends_bind rest
      refine .inr ⟨counts, handled, rfl, second, ?_⟩
      cases counts with
      | error reason =>
          obtain ⟨rfl, rfl⟩ := ends_done rest
          exact .inl ⟨reason, rfl, rfl, rfl⟩
      | ok counts =>
          obtain ⟨last, final, third, rest⟩ := ends_bind rest
          cases last with
          | error reason =>
              obtain ⟨rfl, rfl⟩ := ends_done rest
              exact .inr ⟨_, third, fun report impossible => by cases impossible⟩
          | ok value =>
              obtain ⟨rfl, rfl⟩ := ends_done rest
              refine .inr ⟨_, third, ?_⟩
              intro report same
              cases same
              rfl

end ConnectForge
