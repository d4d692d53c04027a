import ConnectForge.Core.SinkWorld

namespace ConnectForge

open Interaction SinkWorld

/-! At-least-once delivery: the stored checkpoint never passes a record that was
neither handled nor pruned, and never moves back. -/

/-- What holds at every moment of a run that began at checkpoint `first`.  The
cursor can lag behind the stored checkpoint after a save that failed but took
effect; `ahead` says by how much, and is why the next batch from the cursor
reaches at least as far. -/
structure NoneLost (first batchSize : Nat) (world : SinkWorld) : Prop where
  base : first ≤ world.checkpoint
  covered : ∀ offset, first ≤ offset → offset < world.checkpoint →
    Handled world.trace offset ∨ Skipped world.trace offset
  behind : ∀ cursor, world.cursor = some cursor → cursor ≤ world.checkpoint
  ahead : ∀ cursor, world.cursor = some cursor → world.checkpoint = cursor ∨
    world.checkpoint ≤ min (max cursor world.log.start + batchSize) world.log.next

def Progresses (first batchSize : Nat) (world after : SinkWorld) : Prop :=
  NoneLost first batchSize after ∧ world.checkpoint ≤ after.checkpoint

namespace NoneLost

variable {first batchSize : Nat} {world moved : SinkWorld}

theorem moves (holds : NoneLost first batchSize world) (moves : world.Moves moved) :
    NoneLost first batchSize moved := by
  obtain ⟨evolves, rest⟩ := moves
  have start := evolves.start_le
  have next := evolves.next_le
  rw [rest]
  refine ⟨holds.base, holds.covered, holds.behind, ?_⟩
  intro cursor here
  rcases holds.ahead cursor here with same | within
  · exact .inl same
  · right
    change world.checkpoint ≤ min (max cursor moved.log.start + batchSize) moved.log.next
    omega

theorem recorded (holds : NoneLost first batchSize world) (event : SinkEvent) :
    NoneLost first batchSize (world.record event) := by
  refine ⟨holds.base, ?_, holds.behind, holds.ahead⟩
  intro offset above below
  rcases holds.covered offset above below with handled | skipped
  · exact .inl (handled.later event)
  · exact .inr (skipped.later event)

theorem progresses (holds : NoneLost first batchSize world) :
    Progresses first batchSize world world := ⟨holds, Nat.le_refl _⟩

theorem resolved (holds : NoneLost first batchSize world) :
    NoneLost first batchSize { world with cursor := some world.checkpoint } := by
  refine ⟨holds.base, holds.covered, ?_, ?_⟩
  · intro cursor same
    cases same
    exact Nat.le_refl _
  · intro cursor same
    cases same
    exact .inl rfl

theorem resolve : ResolveStep (Progresses first batchSize) (NoneLost first batchSize) where
  stable := fun moved holds => holds.moves moved
  idle := fun holds => holds.progresses
  settle := fun holds => ⟨⟨holds.resolved, Nat.le_refl _⟩, holds.resolved⟩

theorem restart (holds : NoneLost first batchSize world) :
    Progresses first batchSize world world.restart := by
  refine ⟨⟨holds.base, holds.covered, ?_, ?_⟩, Nat.le_refl _⟩
  · intro cursor same
    cases same
  · intro cursor same
    cases same

end NoneLost

/-- A batch has been fetched from the cursor, when the log began at `retained`,
and some of it is still to be handled. -/
structure Delivering (first batchSize cursor retained : Nat) (batch remaining : List Record)
    (world : SinkWorld) : Prop where
  holds : NoneLost first batchSize world
  positioned : world.cursor = some cursor
  seen : .fetched cursor retained ∈ world.trace
  numbered : Numbered (max cursor retained) batch
  reaches : world.checkpoint ≤ max cursor retained + batch.length
  within : max cursor retained + batch.length ≤
    min (max cursor world.log.start + batchSize) world.log.next
  handled : ∃ front, batch = front ++ remaining ∧
    ∀ record ∈ front, Handled world.trace record.offset

namespace Delivering

variable {first batchSize cursor retained : Nat} {batch remaining rest : List Record}
  {record : Record} {world moved : SinkWorld}

theorem moves (delivering : Delivering first batchSize cursor retained batch remaining world)
    (moves : world.Moves moved) :
    Delivering first batchSize cursor retained batch remaining moved := by
  have holds := delivering.holds.moves moves
  obtain ⟨evolves, rest⟩ := moves
  have start := evolves.start_le
  have next := evolves.next_le
  have within := delivering.within
  refine ⟨holds, ?_, ?_, delivering.numbered, ?_, by omega, ?_⟩
  all_goals rw [rest]
  · exact delivering.positioned
  · exact delivering.seen
  · exact delivering.reaches
  · exact delivering.handled

theorem recorded (delivering : Delivering first batchSize cursor retained batch remaining world)
    (event : SinkEvent) :
    Delivering first batchSize cursor retained batch remaining (world.record event) := by
  obtain ⟨front, split, handled⟩ := delivering.handled
  exact ⟨delivering.holds.recorded event, delivering.positioned,
    List.mem_cons_of_mem _ delivering.seen, delivering.numbered, delivering.reaches,
    delivering.within, front, split, fun record member => (handled record member).later event⟩

theorem advance
    (delivering : Delivering first batchSize cursor retained batch (record :: rest) world)
    (event : SinkEvent) (done : Handled (event :: world.trace) record.offset) :
    Delivering first batchSize cursor retained batch rest (world.record event) := by
  have recorded := delivering.recorded event
  obtain ⟨front, split, handled⟩ := recorded.handled
  refine ⟨recorded.holds, recorded.positioned, recorded.seen, recorded.numbered, recorded.reaches,
    recorded.within, front ++ [record], by rw [split]; simp, ?_⟩
  intro other member
  rcases List.mem_append.mp member with earlier | last
  · exact handled other earlier
  · rw [List.mem_singleton.mp last]
    exact done

/-- The delivery loop, from one record to the next. -/
theorem loop : DeliveryLoop Moves (Progresses first batchSize)
    (Delivering first batchSize cursor retained batch) (NoneLost first batchSize) where
  stable := fun moves delivering => delivering.moves moves
  stuckStable := fun moves holds => holds.moves moves
  idle := fun delivering => delivering.holds.progresses
  counted := fun _ _ delivering =>
    ⟨⟨⟨delivering.holds.base, delivering.holds.covered, delivering.holds.behind,
      delivering.holds.ahead⟩, Nat.le_refl _⟩,
      ⟨⟨delivering.holds.base, delivering.holds.covered, delivering.holds.behind,
        delivering.holds.ahead⟩, delivering.positioned, delivering.seen, delivering.numbered,
        delivering.reaches, delivering.within, delivering.handled⟩⟩
  failed := fun delivering =>
    ⟨(delivering.holds.recorded _).progresses, delivering.recorded _⟩
  delivered := fun delivering =>
    ⟨(delivering.holds.recorded _).progresses, delivering.advance _
      (.inl ⟨_, List.mem_cons_self, _, List.mem_singleton_self _, rfl⟩)⟩
  lost := fun delivering _ =>
    ⟨(delivering.holds.recorded _).progresses, delivering.holds.recorded _⟩
  deadLettered := fun delivering same =>
    ⟨(delivering.holds.recorded _).progresses, delivering.advance _
      (.inr ⟨_, List.mem_cons_self, same⟩)⟩

theorem saved (delivering : Delivering first batchSize cursor retained batch [] world)
    (result : Except PortError Unit) :
    NoneLost first batchSize (SinkWorld.record
      { world with persisted := some (max cursor retained + batch.length) }
      (.saved (max cursor retained + batch.length) result)) := by
  have reaches := delivering.reaches
  have behind := delivering.holds.behind cursor delivering.positioned
  obtain ⟨front, whole, handled⟩ := delivering.handled
  rw [List.append_nil] at whole
  subst whole
  apply NoneLost.recorded
  refine ⟨Nat.le_trans delivering.holds.base reaches, ?_, ?_, ?_⟩
  · intro offset above below
    change offset < max cursor retained + batch.length at below
    by_cases old : offset < world.checkpoint
    · exact delivering.holds.covered offset above old
    by_cases pruned : offset < max cursor retained
    · exact .inr ⟨cursor, retained, delivering.seen, by omega, by omega⟩
    · left
      have inside : offset - max cursor retained < batch.length := by omega
      have offsetHere := delivering.numbered.getElem? (List.getElem?_eq_getElem inside)
      have handledHere := handled _ (List.getElem_mem inside)
      rw [offsetHere, Nat.add_sub_cancel' (by omega)] at handledHere
      exact handledHere
  · intro other same
    cases delivering.positioned.symm.trans same
    exact Nat.le_trans behind reaches
  · intro other same
    cases delivering.positioned.symm.trans same
    exact .inr delivering.within

theorem commit : CommitStep Moves (Progresses first batchSize) (max cursor retained + batch.length)
    (Delivering first batchSize cursor retained batch [])
    (fun world => NoneLost first batchSize world ∧
      world.checkpoint = max cursor retained + batch.length)
    (NoneLost first batchSize) (NoneLost first batchSize) where
  readyStable := fun moves delivering => delivering.moves moves
  storedStable := fun moves stored => ⟨stored.1.moves moves, by rw [moves.rest]; exact stored.2⟩
  committedStable := fun moves holds => holds.moves moves
  failedStable := fun moves holds => holds.moves moves
  save := fun delivering =>
    ⟨⟨delivering.saved (.ok ()), delivering.reaches⟩, delivering.saved (.ok ()), rfl⟩
  unsure := fun reason delivering =>
    ⟨⟨delivering.saved (.error reason), delivering.reaches⟩, delivering.saved (.error reason)⟩
  lose := fun _ delivering =>
    ⟨(delivering.holds.recorded _).progresses, delivering.holds.recorded _⟩
  write := by
    intro world stored
    have settled := stored.1.resolved
    rw [stored.2] at settled
    exact ⟨⟨settled, Nat.le_refl _⟩, settled⟩

end Delivering

section Runtime

variable {runtime : SinkRuntime} {first : Nat} {world : SinkWorld}

/-- What a fetch from the cursor returns starts a batch that reaches the stored
checkpoint. -/
theorem Delivering.fetched {batchSize cursor : Nat} (holds : NoneLost first batchSize world)
    (positioned : world.cursor = some cursor) (nonempty : world.log.slice cursor batchSize ≠ []) :
    Delivering first batchSize cursor world.log.start (world.log.slice cursor batchSize)
      (world.log.slice cursor batchSize) (world.record (.fetched cursor world.log.start)) := by
  have size := world.log.length_slice cursor batchSize
  have positive := List.length_pos_iff.mpr nonempty
  have highest : Nat.max cursor world.log.start = max cursor world.log.start := rfl
  rw [highest] at size
  refine ⟨holds.recorded _, positioned, List.mem_cons_self, world.log.slice_numbered cursor batchSize,
    ?_, ?_, [], rfl, by simp⟩
  · change world.checkpoint ≤ _
    have ahead := holds.ahead cursor positioned
    omega
  · change _ ≤ min (max cursor world.log.start + batchSize) world.log.next
    omega

theorem Delivering.safe_processBatch {cursor retained : Nat} {batch : List Record}
    (guarantee : runtime.config.guarantee = .atLeastOnce) (nonempty : batch ≠ [])
    (delivering : Delivering first runtime.config.batchSize cursor retained batch batch world) :
    Safe (Answered runtime) Moves (Progresses first runtime.config.batchSize)
      (fun _ world => NoneLost first runtime.config.batchSize world)
      (runtime.processBatch cursor batch) world := by
  have other : runtime.config.guarantee ≠ .atMostOnce := by rw [guarantee]; decide
  have filled : batch.isEmpty = false := by simpa using nonempty
  simp only [SinkRuntime.processBatch, filled, Bool.false_eq_true, ↓reduceIte, delivering.numbered.nextAfter nonempty,
    runtime.commitUnder_other other, runtime.commitUnder_same guarantee, Program.done_bind]
  refine Safe.bind Moves.refl (Delivering.loop.safe_deliverAll id Moves.refl batch 0 0 delivering) ?_
  intro result world after
  cases result with
  | error reason => exact Safe.done fun moved moves => after.moves moves
  | ok counts =>
      refine Safe.bind Moves.refl (Delivering.commit.safe_commitCheckpoint id after) ?_
      intro result world holds
      cases result with
      | error reason => exact Safe.done fun moved moves => holds.moves moves
      | ok value => exact Safe.done fun moved moves => holds.moves moves

theorem atLeastOnce_sound (first : Nat) (guarantee : runtime.config.guarantee = .atLeastOnce) :
    Session.Sound (Answered runtime) Moves SinkWorld.restart runtime.runOnce Moves
      (Progresses first runtime.config.batchSize) (NoneLost first runtime.config.batchSize)
      (fun _ world => NoneLost first runtime.config.batchSize world) where
  reflexive := Moves.refl
  transitive := Moves.trans
  kept := fun progresses => progresses.1
  environment := fun holds moves =>
    ⟨moves, holds.moves moves, Nat.le_of_eq (by rw [moves.rest]; rfl)⟩
  crash := fun holds => holds.restart
  start := NoneLost.resolve.safe_runOnce
    (fun holds => ⟨(holds.recorded _).progresses, holds.recorded _⟩)
    fun holds positioned nonempty =>
      (Delivering.fetched holds positioned nonempty).safe_processBatch guarantee nonempty

theorem NoneLost.fresh (log : PartitionLog) (persisted : Option Nat) (batchSize : Nat) :
    NoneLost (persisted.getD Offset.zero) batchSize (.fresh log persisted) := by
  refine ⟨Nat.le_refl _, ?_, ?_, ?_⟩
  · intro offset above below
    exact absurd below (Nat.not_lt.mpr above)
  · intro cursor same
    cases same
  · intro cursor same
    cases same

/-- An at-least-once sink never loses a record: whatever fails and wherever it
crashes, an offset below the stored checkpoint was delivered, dead-lettered, or
gone from the log when it was asked for; and the stored checkpoint never moves
back. -/
theorem at_least_once {runtime : SinkRuntime}
    (guarantee : runtime.config.guarantee = .atLeastOnce) (log : PartitionLog)
    (persisted : Option Nat)
    {session : Session SinkWorld SinkCall SinkCall.Answer (Except CoreError DeliveryReport)}
    (reached : Session.Reaches (Answered runtime) Moves SinkWorld.restart runtime.runOnce
      (.fresh log persisted) session) :
    (∀ offset, persisted.getD Offset.zero ≤ offset → offset < session.world.checkpoint →
      Handled session.world.trace offset ∨ Skipped session.world.trace offset) ∧
    ∀ later, Relation.ReflTransGen
      (Session.Step (Answered runtime) Moves SinkWorld.restart runtime.runOnce) session later →
      session.world.checkpoint ≤ later.world.checkpoint := by
  have sound := atLeastOnce_sound (persisted.getD Offset.zero) guarantee
  have ordered := sound.reaches (NoneLost.fresh log persisted runtime.config.batchSize) reached
  exact ⟨ordered.1.covered, fun later run => sound.grows (fun progresses => progresses.2) ordered run⟩

/-- Two records, the first of them delivered and checkpointed. -/
theorem at_least_once_delivered :
    ∃ (runtime : SinkRuntime) (log : PartitionLog)
        (session : Session SinkWorld SinkCall SinkCall.Answer (Except CoreError DeliveryReport)),
      Session.Reaches (Answered runtime) Moves SinkWorld.restart runtime.runOnce
        (.fresh log none) session ∧
      log.next = 2 ∧ session.world.checkpoint = 1 ∧
      (Handled session.world.trace 0 ∨ Skipped session.world.trace 0) := by
  let runtime := plainSink { guarantee := .atLeastOnce, maxAttempts := 1, batchSize := 1 }
  let log := plainLog 2
  have reached := Session.reaches_run (reliable_answered runtime (fun _ => .ok ()) .epoch)
    (Relation.ReflTransGen.refl : Session.Reaches (Answered runtime) Moves SinkWorld.restart
      runtime.runOnce (.fresh log none) ⟨.fresh log none, none⟩)
  exact ⟨runtime, log, _, reached, rfl, rfl, (at_least_once rfl log none reached).1 0
    (Nat.le_refl 0) (by decide)⟩

end Runtime

end ConnectForge
