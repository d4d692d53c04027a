import ConnectForge.Core.SinkWorld
import ConnectForge.Interaction.Pool

namespace ConnectForge

open Interaction SinkWorld

/-! Status calls next to the task that runs rounds.  Both resolve the
checkpoint, so both write the cursor. -/

/-- The offset of the latest commit the checkpoint store acknowledged. -/
def lastCommitted : List SinkEvent → Option Nat
  | [] => none
  | .saved offset (.ok ()) :: _ => some offset
  | _ :: trace => lastCommitted trace

def StoreAnswers (runtime : SinkRuntime) (request : SinkCall) (world : SinkWorld)
    (answer : request.Answer) (after : SinkWorld) : Prop :=
  Answered runtime request world answer after ∧
    match request, answer with
    | .load _ _ _, .error _ => False
    | .save _, .error _ => False
    | _, _ => True

/-- The answers a status call gets when its write of the cursor never lowers
it. -/
def StatusAnswers (runtime : SinkRuntime) (request : SinkCall) (world : SinkWorld)
    (answer : request.Answer) (after : SinkWorld) : Prop :=
  StoreAnswers runtime request world answer after ∧
    ∀ loaded, request = .writeCursor loaded → ∀ cursor, world.cursor = some cursor → cursor ≤ loaded

abbrev SinkPool := Pool SinkWorld SinkCall SinkCall.Answer (Except CoreError DeliveryReport)
  (Except CoreError ConnectorStatus)

/-- A round that has come to its fetch starts no lower than the last commit. -/
def StartsCommitted (pool : SinkPool) : Prop :=
  ∀ topic partition start max resume,
    pool.task = some (.call (.fetch topic partition start max) resume) →
    ∀ committed, lastCommitted pool.world.trace = some committed → committed ≤ start

/-- Between two rounds the cursor is not behind the last commit. -/
def CursorKept (world : SinkWorld) : Prop :=
  ∀ committed, lastCommitted world.trace = some committed →
    ∃ cursor, world.cursor = some cursor ∧ committed ≤ cursor

/-- What a round lets the rest of the process do to its world. -/
structure Raises (world moved : SinkWorld) : Prop where
  trace : moved.trace = world.trace
  cursor : ∀ cursor, world.cursor = some cursor → ∃ later, moved.cursor = some later ∧ cursor ≤ later

def FetchesCommitted (world after : SinkWorld) : Prop :=
  ∀ start retained, after.trace = .fetched start retained :: world.trace →
    ∀ committed, lastCommitted world.trace = some committed → committed ≤ start

theorem Raises.refl (world : SinkWorld) : Raises world world :=
  ⟨rfl, fun cursor same => ⟨cursor, same, Nat.le_refl _⟩⟩

theorem Raises.trans {first second third : SinkWorld} (left : Raises first second)
    (right : Raises second third) : Raises first third := by
  refine ⟨right.trace.trans left.trace, ?_⟩
  intro cursor same
  obtain ⟨middle, found, below⟩ := left.cursor cursor same
  obtain ⟨later, last, above⟩ := right.cursor middle found
  exact ⟨later, last, Nat.le_trans below above⟩

theorem Raises.of_moves {world moved : SinkWorld} (moves : world.Moves moved) :
    Raises world moved := by
  rw [moves.rest]
  exact ⟨rfl, fun cursor same => ⟨cursor, same, Nat.le_refl _⟩⟩

namespace CursorKept

theorem raised {world moved : SinkWorld} (raises : Raises world moved) (kept : CursorKept world) :
    CursorKept moved := by
  intro committed last
  rw [raises.trace] at last
  obtain ⟨cursor, found, below⟩ := kept committed last
  obtain ⟨later, here, above⟩ := raises.cursor cursor found
  exact ⟨later, here, Nat.le_trans below above⟩

theorem recorded {world : SinkWorld} {event : SinkEvent}
    (fetched : ∀ start retained, event ≠ .fetched start retained)
    (same : lastCommitted (event :: world.trace) = lastCommitted world.trace)
    (kept : CursorKept world) :
    FetchesCommitted world (world.record event) ∧ CursorKept (world.record event) := by
  refine ⟨?_, ?_⟩
  · intro start retained recorded
    exact absurd (List.cons.inj recorded).1 (fetched start retained)
  · intro committed last
    exact kept committed (same.symm.trans last)

end CursorKept

theorem FetchesCommitted.silent {world after : SinkWorld} (same : after.trace = world.trace) :
    FetchesCommitted world after := by
  intro start retained recorded
  rw [same] at recorded
  exact absurd (congrArg List.length recorded) (by simp)

theorem CursorKept.loop :
    DeliveryLoop Raises FetchesCommitted (fun _ => CursorKept) CursorKept where
  stable := raised
  stuckStable := raised
  idle := fun _ => .silent rfl
  counted := fun _ _ kept => ⟨.silent rfl, kept⟩
  failed := recorded nofun rfl
  delivered := recorded nofun rfl
  lost := fun kept _ => recorded nofun rfl kept
  deadLettered := fun kept _ => recorded nofun rfl kept

theorem CursorKept.commit (offset : Nat) :
    CommitStep Raises FetchesCommitted offset CursorKept
      (fun world => lastCommitted world.trace = some offset) CursorKept CursorKept where
  readyStable := raised
  storedStable := fun raises stored => by rw [raises.trace]; exact stored
  committedStable := raised
  failedStable := raised
  save := fun {world} _ => ⟨fun _ _ recorded => (nomatch recorded), rfl⟩
  unsure := fun {world} reason kept =>
    ⟨fun _ _ recorded => (nomatch recorded), fun committed last => kept committed last⟩
  lose := fun _ => recorded nofun rfl
  write := by
    intro world stored
    refine ⟨.silent rfl, ?_⟩
    intro committed last
    have same : some offset = some committed := stored.symm.trans last
    cases same
    exact ⟨offset, rfl, Nat.le_refl _⟩

section Programs

variable {runtime : SinkRuntime} {world : SinkWorld}

theorem StoreAnswers.answered {request : SinkCall} {world after : SinkWorld}
    {answer : request.Answer} (given : StoreAnswers runtime request world answer after) :
    Answered runtime request world answer after := given.1

/-- What a round resolves is not behind the last commit: it is the cursor, or
nothing has been committed yet. -/
theorem CursorKept.safe_resolveCheckpoint (kept : CursorKept world) :
    Safe (StoreAnswers runtime) Raises FetchesCommitted
      (fun result world => CursorKept world ∧ ∀ start, result = .ok start →
        ∀ committed, lastCommitted world.trace = some committed → committed ≤ start)
      runtime.resolveCheckpoint world := by
  apply Safe.call
  intro before raises answer moved given
  obtain ⟨rfl, rfl⟩ := given.answered
  replace kept := kept.raised raises
  refine ⟨.silent rfl, ?_⟩
  cases cached : moved.cursor with
  | some cursor =>
      apply Safe.done
      intro later more
      refine ⟨kept.raised more, ?_⟩
      intro start same committed last
      cases same
      rw [more.trace] at last
      obtain ⟨found, here, below⟩ := kept committed last
      rw [cached] at here
      cases here
      exact below
  | none =>
      have uncommitted : lastCommitted moved.trace = none := by
        cases last : lastCommitted moved.trace with
        | none => rfl
        | some committed =>
            obtain ⟨cursor, found, _⟩ := kept committed last
            rw [cached] at found
            cases found
      apply Safe.call
      intro before raises answer loaded given
      obtain ⟨rfl, _⟩ := given.answered
      refine ⟨.silent rfl, ?_⟩
      have still : lastCommitted loaded.trace = none := by rw [raises.trace]; exact uncommitted
      cases answer with
      | error reason => exact given.2.elim
      | ok found =>
          apply Safe.call
          intro before raises written after given
          have effect : after = { before with cursor := some (found.getD Offset.zero) } :=
            given.answered
          subst effect
          refine ⟨.silent rfl, ?_⟩
          have last : lastCommitted before.trace = none := by rw [raises.trace]; exact still
          apply Safe.done
          intro final more
          have nothing : lastCommitted final.trace = none := by rw [more.trace]; exact last
          refine ⟨fun committed impossible => ?_, fun _ _ committed impossible => ?_⟩
          · rw [nothing] at impossible
            cases impossible
          · rw [nothing] at impossible
            cases impossible

theorem CursorKept.safe_commitUnder (guarantee : DeliveryGuarantee) (offset : Nat)
    (kept : CursorKept world) :
    Safe (StoreAnswers runtime) Raises FetchesCommitted (fun _ world => CursorKept world)
      (runtime.commitUnder guarantee offset) world := by
  by_cases same : runtime.config.guarantee = guarantee
  · rw [runtime.commitUnder_same same]
    refine ((CursorKept.commit offset).safe_commitCheckpoint StoreAnswers.answered kept).weaken ?_
    intro result world holds
    cases result with
    | ok value => exact holds
    | error reason => exact holds
  · rw [runtime.commitUnder_other same]
    exact Safe.done fun moved raises => kept.raised raises

theorem CursorKept.safe_processBatch (start : Nat) (records : List Record)
    (kept : CursorKept world) :
    Safe (StoreAnswers runtime) Raises FetchesCommitted (fun _ world => CursorKept world)
      (runtime.processBatch start records) world := by
  unfold SinkRuntime.processBatch
  split
  · exact Safe.done fun moved raises => kept.raised raises
  · refine Safe.bind Raises.refl (kept.safe_commitUnder .atMostOnce _) ?_
    intro result world kept
    cases result with
    | error reason => exact Safe.done fun moved raises => kept.raised raises
    | ok value =>
        refine Safe.bind Raises.refl
          (CursorKept.loop.safe_deliverAll StoreAnswers.answered Raises.refl records 0 0 kept) ?_
        intro result world kept
        cases result with
        | error reason => exact Safe.done fun moved raises => kept.raised raises
        | ok counts =>
            refine Safe.bind Raises.refl (kept.safe_commitUnder .atLeastOnce _) ?_
            intro result world kept
            cases result with
            | error reason => exact Safe.done fun moved raises => kept.raised raises
            | ok value => exact Safe.done fun moved raises => kept.raised raises

theorem CursorKept.safe_runOnce (kept : CursorKept world) :
    Safe (StoreAnswers runtime) Raises FetchesCommitted (fun _ world => CursorKept world)
      runtime.runOnce world := by
  refine Safe.bind Raises.refl kept.safe_resolveCheckpoint ?_
  rintro result world ⟨kept, positioned⟩
  cases result with
  | error reason => exact Safe.done fun moved raises => kept.raised raises
  | ok start =>
      apply Safe.call
      intro moved raises answer after given
      have here := kept.raised raises
      rcases answered_fetch given.answered with ⟨reason, rfl, rfl⟩ | ⟨rfl, rfl⟩
      · exact ⟨.silent rfl, Safe.done fun later more => here.raised more⟩
      · refine ⟨?_, CursorKept.safe_processBatch start _ fun committed last => here committed last⟩
        intro other retained recorded committed last
        cases recorded
        rw [raises.trace] at last
        exact positioned start rfl committed last

/-- A status call whose write never lowers the cursor does nothing a round does
not allow for. -/
theorem safe_status (world : SinkWorld) :
    Safe (StatusAnswers runtime) (fun _ _ => True) Raises (fun _ _ => True) runtime.status world := by
  have ending : ∀ (result : Except CoreError ConnectorStatus) (world : SinkWorld),
      Safe (StatusAnswers runtime) (fun _ _ => True) Raises (fun _ _ => True)
        (.done result : SinkProgram _) world := fun _ _ => Safe.done fun _ _ => trivial
  apply Safe.call
  intro before _ processed moved given
  obtain ⟨_, rfl⟩ := given.1.answered
  refine ⟨.refl _, ?_⟩
  apply Safe.call
  intro before _ dead moved given
  obtain ⟨_, rfl⟩ := given.1.answered
  refine ⟨.refl _, ?_⟩
  apply Safe.call
  intro before _ cached moved given
  obtain ⟨_, rfl⟩ := given.1.answered
  refine ⟨.refl _, ?_⟩
  cases cached with
  | some cursor => exact ending _ _
  | none =>
      apply Safe.call
      intro before _ loaded moved given
      obtain ⟨rfl, _⟩ := given.1.answered
      refine ⟨.refl _, ?_⟩
      cases loaded with
      | error reason => exact ending _ _
      | ok found =>
          apply Safe.call
          intro before _ written after given
          have effect : after = { before with cursor := some (found.getD Offset.zero) } :=
            given.1.answered
          subst effect
          refine ⟨⟨rfl, ?_⟩, ending _ _⟩
          intro cursor same
          exact ⟨_, rfl, given.2 _ rfl cursor same⟩

end Programs

/-- As long as no status call lowers the cursor, no round starts below the last
commit. -/
theorem status_harmless (runtime : SinkRuntime) (log : PartitionLog) (persisted : Option Nat)
    {pool : SinkPool}
    (reached : Pool.Reaches (StoreAnswers runtime) (StatusAnswers runtime) Moves runtime.runOnce
      runtime.status (.fresh log persisted) pool) :
    StartsCommitted pool := by
  have sound : Pool.Sound (StoreAnswers runtime) (StatusAnswers runtime) Moves runtime.runOnce
      runtime.status Raises FetchesCommitted CursorKept := {
    reflexive := Raises.refl
    transitive := Raises.trans
    idleStable := CursorKept.raised
    environment := Raises.of_moves
    helper := safe_status
    start := CursorKept.safe_runOnce }
  have fresh : CursorKept (.fresh log persisted) := by
    intro committed last
    cases last
  have ordered := sound.reaches fresh reached
  intro topic partition start max resume running
  -- A fetch that succeeds is one of the answers, and its start is in the trace.
  have possible : StoreAnswers runtime (.fetch topic partition start max) pool.world
      (.ok (pool.world.log.fetch start max))
      (pool.world.record (.fetched start pool.world.log.start)) :=
    ⟨.inr ⟨rfl, fun _ _ => rfl⟩, trivial⟩
  obtain ⟨fetches, _⟩ := ordered.task _ running _ (Raises.refl _) _ _ possible
  exact fetches start pool.world.log.start rfl

theorem reliable_stored (runtime : SinkRuntime) (sink : Nat → Except PortError Unit)
    (time : DateTime) (request : SinkCall) (world : SinkWorld) :
    StoreAnswers runtime request world (reliable runtime sink time request world).1
      (reliable runtime sink time request world).2 := by
  refine ⟨reliable_answered runtime sink time request world, ?_⟩
  cases request <;> exact trivial

def statusSink : SinkRuntime where
  id := ⟨"sink", rfl⟩
  topic := ⟨"events", rfl⟩
  partition := 0
  config := { guarantee := .atLeastOnce, maxAttempts := 1, batchSize := 1 }

def statusLog : PartitionLog where
  start := 0
  records := [{ offset := 0, timestamp := .epoch, key := none, payload := [1] }]
  numbered := rfl

/-- A status call writes the cursor before the first round, and the second
round starts where that one committed. -/
theorem status_harmless_first :
    ∃ pool : SinkPool,
      Pool.Reaches (StoreAnswers statusSink) (StatusAnswers statusSink) Moves statusSink.runOnce
        statusSink.status (.fresh statusLog none) pool ∧
      lastCommitted pool.world.trace = some 1 ∧ StartsCommitted pool := by
  have fresh : Pool.Reaches (StoreAnswers statusSink) (StatusAnswers statusSink) Moves
      statusSink.runOnce statusSink.status (.fresh statusLog none)
      ⟨.fresh statusLog none, none, []⟩ := .refl
  have written := (((((fresh.tail .spawn).tail
    (.help_first _ ⟨⟨⟨rfl, rfl⟩, trivial⟩, nofun⟩)).tail
    (.help_first _ ⟨⟨⟨rfl, rfl⟩, trivial⟩, nofun⟩)).tail
    (.help_first _ ⟨⟨⟨rfl, rfl⟩, trivial⟩, nofun⟩)).tail
    (.help_first _ ⟨⟨⟨rfl, .inr fun _ => rfl⟩, trivial⟩, nofun⟩)).tail
    (.help_first () ⟨⟨rfl, trivial⟩, fun _ _ _ impossible => by cases impossible⟩)
  have committed := Pool.reaches_run (reliable_stored statusSink (fun _ => .ok ()) .epoch) written
  have starting := (committed.tail .start).tail (.answer ⟨⟨rfl, rfl⟩, trivial⟩)
  exact ⟨_, starting, rfl, status_harmless statusSink statusLog none starting⟩

/-- A status call that finds no cursor and loads no checkpoint before the first
round, and writes what it loaded after it, sends the second round back. -/
theorem status_moves_back :
    ¬ ∀ (runtime : SinkRuntime) (log : PartitionLog) (persisted : Option Nat) (pool : SinkPool),
      Pool.Reaches (StoreAnswers runtime) (StoreAnswers runtime) Moves runtime.runOnce
        runtime.status (.fresh log persisted) pool → StartsCommitted pool := by
  intro harmless
  have fresh : Pool.Reaches (StoreAnswers statusSink) (StoreAnswers statusSink) Moves
      statusSink.runOnce statusSink.status (.fresh statusLog none)
      ⟨.fresh statusLog none, none, []⟩ := .refl
  have loaded := ((((fresh.tail .spawn).tail
    (.help_first _ ⟨⟨rfl, rfl⟩, trivial⟩)).tail
    (.help_first _ ⟨⟨rfl, rfl⟩, trivial⟩)).tail
    (.help_first _ ⟨⟨rfl, rfl⟩, trivial⟩)).tail
    (.help_first _ ⟨⟨rfl, .inr fun _ => rfl⟩, trivial⟩)
  have committed := Pool.reaches_run (reliable_stored statusSink (fun _ => .ok ()) .epoch) loaded
  have starting := ((committed.tail (.help_first () ⟨rfl, trivial⟩)).tail .start).tail
    (.answer ⟨⟨rfl, rfl⟩, trivial⟩)
  exact absurd (harmless statusSink statusLog none _ starting _ _ _ _ _ rfl 1 rfl) (by decide)

end ConnectForge
