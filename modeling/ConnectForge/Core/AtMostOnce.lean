import ConnectForge.Core.SinkWorld

namespace ConnectForge

open Interaction SinkWorld

/-! At-most-once delivery: a record that was delivered or dead-lettered is never
passed to the sink again. -/

namespace SinkEvent

/-- The record at an offset has reached the sink, or was passed on as a dead
letter. -/
def Finishes (event : SinkEvent) (offset : Nat) : Prop :=
  (∃ records, event = .delivered records (.ok ()) ∧ ∃ record ∈ records, record.offset = offset) ∨
  (∃ letter result, event = .deadLettered letter result ∧ letter.offset = offset)

def Touches (event : SinkEvent) (offset : Nat) : Prop :=
  event.Delivers offset ∨ event.Finishes offset

end SinkEvent

/-- What holds at every moment: whatever was touched lies below both positions
from which a later batch can start. -/
structure NoneRepeated (world : SinkWorld) : Prop where
  once : world.trace.Pairwise fun later earlier =>
    ∀ offset, earlier.Finishes offset → ¬ later.Delivers offset
  stored : ∀ event ∈ world.trace, ∀ offset, event.Touches offset → offset < world.checkpoint
  passed : ∀ cursor, world.cursor = some cursor →
    ∀ event ∈ world.trace, ∀ offset, event.Touches offset → offset < cursor

namespace NoneRepeated

variable {world moved : SinkWorld}

theorem moves (holds : NoneRepeated world) (moves : world.Moves moved) : NoneRepeated moved := by
  rw [moves.rest]
  exact ⟨holds.once, holds.stored, holds.passed⟩

theorem recorded (holds : NoneRepeated world) {event : SinkEvent}
    (silent : ∀ offset, ¬ event.Touches offset) : NoneRepeated (world.record event) := by
  refine ⟨List.pairwise_cons.mpr ⟨?_, holds.once⟩, ?_, ?_⟩
  · intro earlier _ offset _ delivers
    exact silent offset (.inl delivers)
  · intro other member offset touches
    rcases List.mem_cons.mp member with rfl | earlier
    · exact absurd touches (silent offset)
    · exact holds.stored other earlier offset touches
  · intro cursor here other member offset touches
    rcases List.mem_cons.mp member with rfl | earlier
    · exact absurd touches (silent offset)
    · exact holds.passed cursor here other earlier offset touches

theorem resolve : ResolveStep (fun _ after => NoneRepeated after) NoneRepeated where
  stable := fun moves holds => holds.moves moves
  idle := fun holds => holds
  settle := by
    intro world holds
    have settled : NoneRepeated { world with cursor := some world.checkpoint } := by
      refine ⟨holds.once, holds.stored, ?_⟩
      intro cursor here
      cases here
      exact holds.stored
    exact ⟨settled, settled⟩

theorem restart (holds : NoneRepeated world) : NoneRepeated world.restart := by
  refine ⟨holds.once, holds.stored, ?_⟩
  intro cursor here
  cases here

theorem fresh (log : PartitionLog) (persisted : Option Nat) :
    NoneRepeated (.fresh log persisted) := by
  refine ⟨.nil, ?_, ?_⟩
  · intro event member
    cases member
  · intro cursor here
    cases here

end NoneRepeated

theorem not_touches_fetched (start retained offset : Nat) :
    ¬ (SinkEvent.fetched start retained).Touches offset := by
  rintro (⟨_, _, impossible, _⟩ | ⟨_, impossible, _⟩ | ⟨_, _, impossible, _⟩) <;> cases impossible

theorem not_touches_saved (position : Nat) (result : Except PortError Unit) (offset : Nat) :
    ¬ (SinkEvent.saved position result).Touches offset := by
  rintro (⟨_, _, impossible, _⟩ | ⟨_, impossible, _⟩ | ⟨_, _, impossible, _⟩) <;> cases impossible

theorem touches_delivered {record : Record} {result : Except PortError Unit} {offset : Nat}
    (touches : (SinkEvent.delivered [record] result).Touches offset) : offset = record.offset := by
  rcases touches with ⟨_, _, same, _, member, rfl⟩ | ⟨_, same, _, member, rfl⟩ | ⟨_, _, same, _⟩
  · cases same
    rw [List.mem_singleton.mp member]
  · cases same
    rw [List.mem_singleton.mp member]
  · cases same

theorem touches_deadLettered {letter : DeadLetterRecord} {result : Except PortError Unit}
    {offset : Nat} (touches : (SinkEvent.deadLettered letter result).Touches offset) :
    offset = letter.offset := by
  rcases touches with ⟨_, _, same, _⟩ | ⟨_, same, _⟩ | ⟨_, _, same, rfl⟩
  · cases same
  · cases same
  · cases same
    rfl

/-- The records of a batch that was committed up to `next` and is being
delivered. -/
structure Handing (next : Nat) (remaining : List Record) (world : SinkWorld) : Prop where
  holds : NoneRepeated world
  committed : world.cursor = some next ∧ world.checkpoint = next
  below : ∀ record ∈ remaining, record.offset < next
  ascending : remaining.Pairwise fun left right => left.offset < right.offset
  unfinished : ∀ record ∈ remaining, ∀ event ∈ world.trace, ∀ offset,
    event.Finishes offset → offset < record.offset

namespace Handing

variable {next : Nat} {record : Record} {rest remaining : List Record} {world moved : SinkWorld}

theorem moves (handing : Handing next remaining world) (moves : world.Moves moved) :
    Handing next remaining moved := by
  have holds := handing.holds.moves moves
  rw [moves.rest] at holds ⊢
  exact ⟨holds, handing.committed, handing.below, handing.ascending, handing.unfinished⟩

theorem touched (handing : Handing next (record :: rest) world) {event : SinkEvent}
    (only : ∀ offset, event.Touches offset → offset = record.offset) :
    NoneRepeated (world.record event) := by
  have below := handing.below record (by simp)
  refine ⟨List.pairwise_cons.mpr ⟨?_, handing.holds.once⟩, ?_, ?_⟩
  · intro earlier member offset finishes delivers
    have lower := handing.unfinished record (by simp) earlier member offset finishes
    have same := only offset (.inl delivers)
    omega
  · intro other member offset touches
    rcases List.mem_cons.mp member with rfl | earlier
    · rw [only offset touches]
      exact handing.committed.2 ▸ below
    · exact handing.holds.stored other earlier offset touches
  · intro cursor here other member offset touches
    rcases List.mem_cons.mp member with rfl | earlier
    · cases handing.committed.1.symm.trans here
      rw [only offset touches]
      exact below
    · exact handing.holds.passed cursor here other earlier offset touches

theorem failed (handing : Handing next (record :: rest) world) (reason : PortError) :
    Handing next (record :: rest) (world.record (.delivered [record] (.error reason))) := by
  refine ⟨handing.touched fun _ => touches_delivered, handing.committed, handing.below,
    handing.ascending, ?_⟩
  intro other inRest event member offset finishes
  rcases List.mem_cons.mp member with rfl | earlier
  · rcases finishes with ⟨_, same, _⟩ | ⟨_, _, same, _⟩
    · cases same
    · cases same
  · exact handing.unfinished other inRest event earlier offset finishes

theorem finished (handing : Handing next (record :: rest) world) {event : SinkEvent}
    (only : ∀ offset, event.Touches offset → offset = record.offset) :
    Handing next rest (world.record event) := by
  obtain ⟨above, ascending⟩ := List.pairwise_cons.mp handing.ascending
  refine ⟨handing.touched only, handing.committed,
    fun other member => handing.below other (by simp [member]), ascending, ?_⟩
  intro other inRest event member offset finishes
  rcases List.mem_cons.mp member with rfl | earlier
  · rw [only offset (.inr finishes)]
    exact above other inRest
  · exact handing.unfinished other (by simp [inRest]) event earlier offset finishes

theorem loop : DeliveryLoop Moves (fun _ after => NoneRepeated after) (Handing next) NoneRepeated where
  stable := fun moves handing => handing.moves moves
  stuckStable := fun moves holds => holds.moves moves
  idle := fun handing => handing.holds
  counted := fun _ _ handing =>
    ⟨⟨handing.holds.once, handing.holds.stored, handing.holds.passed⟩,
      ⟨handing.holds.once, handing.holds.stored, handing.holds.passed⟩, handing.committed,
      handing.below, handing.ascending, handing.unfinished⟩
  failed := fun handing => ⟨(handing.failed _).holds, handing.failed _⟩
  delivered := fun handing =>
    ⟨handing.touched fun _ => touches_delivered, handing.finished fun _ => touches_delivered⟩
  lost := fun handing same =>
    ⟨handing.touched fun _ touches => (touches_deadLettered touches).trans same,
      handing.touched fun _ touches => (touches_deadLettered touches).trans same⟩
  deadLettered := fun handing same =>
    ⟨handing.touched fun _ touches => (touches_deadLettered touches).trans same,
      handing.finished fun _ touches => (touches_deadLettered touches).trans same⟩

end Handing

section Runtime

variable {runtime : SinkRuntime} {cursor first : Nat} {batch : List Record} {world : SinkWorld}

structure Drawn (cursor first : Nat) (batch : List Record) (world : SinkWorld) : Prop where
  holds : NoneRepeated world
  positioned : world.cursor = some cursor
  above : cursor ≤ first
  numbered : Numbered first batch

theorem Drawn.moves {moved : SinkWorld} (drawn : Drawn cursor first batch world)
    (moves : world.Moves moved) : Drawn cursor first batch moved := by
  have holds := drawn.holds.moves moves
  rw [moves.rest] at holds ⊢
  exact ⟨holds, drawn.positioned, drawn.above, drawn.numbered⟩

theorem Drawn.saved (drawn : Drawn cursor first batch world) (result : Except PortError Unit) :
    Drawn cursor first batch (SinkWorld.record
      { world with persisted := some (first + batch.length) }
      (.saved (first + batch.length) result)) := by
  have stored : NoneRepeated { world with persisted := some (first + batch.length) } := by
    refine ⟨drawn.holds.once, ?_, drawn.holds.passed⟩
    intro event member offset touches
    have lower := drawn.holds.passed cursor drawn.positioned event member offset touches
    have above := drawn.above
    change offset < first + batch.length
    omega
  exact ⟨stored.recorded (not_touches_saved _ _), drawn.positioned, drawn.above, drawn.numbered⟩

theorem Drawn.written (drawn : Drawn cursor first batch world)
    (stored : world.checkpoint = first + batch.length) :
    Handing (first + batch.length) batch { world with cursor := some (first + batch.length) } := by
  have above := drawn.above
  have touched : ∀ event ∈ world.trace, ∀ offset, event.Touches offset → offset < first := by
    intro event member offset touches
    exact Nat.lt_of_lt_of_le (drawn.holds.passed cursor drawn.positioned event member offset touches)
      above
  refine ⟨⟨drawn.holds.once, drawn.holds.stored, ?_⟩, ⟨rfl, stored⟩, ?_, drawn.numbered.ascending, ?_⟩
  · intro position here event member offset touches
    cases here
    have lower := touched event member offset touches
    omega
  · intro record member
    exact (drawn.numbered.bounds member).2
  · intro record member event inTrace offset finishes
    have lower := touched event inTrace offset (.inr finishes)
    have bound := (drawn.numbered.bounds member).1
    omega

theorem Drawn.commit : CommitStep Moves (fun _ after => NoneRepeated after) (first + batch.length)
    (Drawn cursor first batch)
    (fun world => Drawn cursor first batch world ∧ world.checkpoint = first + batch.length)
    (Handing (first + batch.length) batch) NoneRepeated where
  readyStable := fun moves drawn => drawn.moves moves
  storedStable := fun moves stored => ⟨stored.1.moves moves, by rw [moves.rest]; exact stored.2⟩
  committedStable := fun moves handing => handing.moves moves
  failedStable := fun moves holds => holds.moves moves
  save := fun drawn => ⟨(drawn.saved (.ok ())).holds, drawn.saved (.ok ()), rfl⟩
  unsure := fun reason drawn =>
    ⟨(drawn.saved (.error reason)).holds, (drawn.saved (.error reason)).holds⟩
  lose := fun _ drawn =>
    ⟨drawn.holds.recorded (not_touches_saved _ _), drawn.holds.recorded (not_touches_saved _ _)⟩
  write := fun stored => ⟨(stored.1.written stored.2).holds, stored.1.written stored.2⟩

theorem Drawn.safe_processBatch (guarantee : runtime.config.guarantee = .atMostOnce)
    (nonempty : batch ≠ []) (drawn : Drawn cursor first batch world) :
    Safe (Answered runtime) Moves (fun _ after => NoneRepeated after)
      (fun _ world => NoneRepeated world) (runtime.processBatch cursor batch) world := by
  have other : runtime.config.guarantee ≠ .atLeastOnce := by rw [guarantee]; decide
  have filled : batch.isEmpty = false := by simpa using nonempty
  simp only [SinkRuntime.processBatch, filled, Bool.false_eq_true, ↓reduceIte,
    drawn.numbered.nextAfter nonempty, runtime.commitUnder_other other,
    runtime.commitUnder_same guarantee, Program.done_bind]
  refine Safe.bind Moves.refl (Drawn.commit.safe_commitCheckpoint id drawn) ?_
  intro result world after
  cases result with
  | error reason => exact Safe.done fun moved moves => after.moves moves
  | ok value =>
      refine Safe.bind Moves.refl (Handing.loop.safe_deliverAll id Moves.refl batch 0 0 after) ?_
      intro result world after
      cases result with
      | error reason => exact Safe.done fun moved moves => after.moves moves
      | ok counts => exact Safe.done fun moved moves => after.holds.moves moves

theorem atMostOnce_sound (guarantee : runtime.config.guarantee = .atMostOnce) :
    Session.Sound (Answered runtime) Moves SinkWorld.restart runtime.runOnce Moves
      (fun _ after => NoneRepeated after) NoneRepeated (fun _ world => NoneRepeated world) where
  reflexive := Moves.refl
  transitive := Moves.trans
  kept := fun holds => holds
  environment := fun holds moves => ⟨moves, holds.moves moves⟩
  crash := fun holds => holds.restart
  start := NoneRepeated.resolve.safe_runOnce
    (fun holds => ⟨holds.recorded (not_touches_fetched _ _), holds.recorded (not_touches_fetched _ _)⟩)
    fun holds positioned nonempty => Drawn.safe_processBatch guarantee nonempty
      ⟨holds.recorded (not_touches_fetched _ _), positioned, Nat.le_max_left _ _,
        PartitionLog.slice_numbered _ _ _⟩

/-- An at-most-once sink never repeats a record: once a delivery of it
succeeded, or it was passed on as a dead letter, no later delivery carries it. -/
theorem at_most_once {runtime : SinkRuntime}
    (guarantee : runtime.config.guarantee = .atMostOnce) (log : PartitionLog)
    (persisted : Option Nat)
    {session : Session SinkWorld SinkCall SinkCall.Answer (Except CoreError DeliveryReport)}
    (reached : Session.Reaches (Answered runtime) Moves SinkWorld.restart runtime.runOnce
      (.fresh log persisted) session) :
    session.world.trace.Pairwise fun later earlier =>
      ∀ offset, earlier.Finishes offset → ¬ later.Delivers offset :=
  ((atMostOnce_sound guarantee).reaches (NoneRepeated.fresh log persisted) reached).1.once

/-- Two records whose deliveries fail for good: both become dead letters. -/
theorem at_most_once_deadLettered :
    ∃ (runtime : SinkRuntime) (log : PartitionLog)
        (session : Session SinkWorld SinkCall SinkCall.Answer (Except CoreError DeliveryReport)),
      Session.Reaches (Answered runtime) Moves SinkWorld.restart runtime.runOnce
        (.fresh log none) session ∧
      log.next = 2 ∧ session.world.checkpoint = 2 ∧ session.world.dead = 2 ∧
      session.world.trace.Pairwise fun later earlier =>
        ∀ offset, earlier.Finishes offset → ¬ later.Delivers offset := by
  let runtime := plainSink { guarantee := .atMostOnce, maxAttempts := 1, batchSize := 2 }
  let log := plainLog 2
  have reached := Session.reaches_run
    (reliable_answered runtime (fun _ => .error (.permanent "bad record")) .epoch)
    (Relation.ReflTransGen.refl : Session.Reaches (Answered runtime) Moves SinkWorld.restart
      runtime.runOnce (.fresh log none) ⟨.fresh log none, none⟩)
  exact ⟨runtime, log, _, reached, rfl, rfl, rfl, at_most_once rfl log none reached⟩

end Runtime

end ConnectForge
