import ConnectForge.Interaction.Program

namespace ConnectForge.Interaction

/-! A program that is run over and over in a world that moves on its own and
can crash: what is in memory is reset, and the program starts from the top. -/

variable {Call : Type} {Answer : Call → Type} {α World : Type}

/-- A world, and the program being run in it, if any. -/
structure Session (World Call : Type) (Answer : Call → Type) (α : Type) where
  world : World
  task : Option (Program Call Answer α)

variable (answers : (request : Call) → World → Answer request → World → Prop)
  (environment : World → World → Prop) (restart : World → World) (program : Program Call Answer α)

inductive Session.Step : Session World Call Answer α → Session World Call Answer α → Prop where
  | environment {world moved task} (moves : environment world moved) :
      Step ⟨world, task⟩ ⟨moved, task⟩
  | start {world} : Step ⟨world, none⟩ ⟨world, some program⟩
  | answer {world after request resume answer} (answered : answers request world answer after) :
      Step ⟨world, some (.call request resume)⟩ ⟨after, some (resume answer)⟩
  | finish {world value} : Step ⟨world, some (.done value)⟩ ⟨world, none⟩
  | crash {world task} : Step ⟨world, task⟩ ⟨restart world, none⟩

def Session.Reaches (world : World) (session : Session World Call Answer α) : Prop :=
  Relation.ReflTransGen (Step answers environment restart program) ⟨world, none⟩ session

/-- What has to be shown of the program and its world for an invariant to hold
along every run. -/
structure Session.Sound (rely guarantee : World → World → Prop) (invariant : World → Prop)
    (post : α → World → Prop) : Prop where
  reflexive : ∀ world, rely world world
  transitive : ∀ {first second third}, rely first second → rely second third → rely first third
  kept : ∀ {world after}, guarantee world after → invariant after
  environment : ∀ {world moved}, invariant world → environment world moved →
    rely world moved ∧ guarantee world moved
  crash : ∀ {world}, invariant world → guarantee world (restart world)
  start : ∀ {world}, invariant world → Safe answers rely guarantee post program world

variable {answers environment restart program} {rely guarantee : World → World → Prop}
  {invariant : World → Prop} {post : α → World → Prop}

/-- The invariant of a session: the world is in order and the rest of the
program is safe in it. -/
def Session.Ordered (answers : (request : Call) → World → Answer request → World → Prop)
    (rely guarantee : World → World → Prop) (invariant : World → Prop) (post : α → World → Prop)
    (session : Session World Call Answer α) : Prop :=
  invariant session.world ∧
    ∀ task, session.task = some task → Safe answers rely guarantee post task session.world

theorem Session.Sound.step
    (sound : Sound answers environment restart program rely guarantee invariant post)
    {session next : Session World Call Answer α}
    (ordered : session.Ordered answers rely guarantee invariant post)
    (step : Step answers environment restart program session next) :
    next.Ordered answers rely guarantee invariant post ∧
      (next.world = session.world ∨ guarantee session.world next.world) := by
  obtain ⟨holds, safe⟩ := ordered
  cases step with
  | environment moves =>
      obtain ⟨relies, guaranteed⟩ := sound.environment holds moves
      refine ⟨⟨sound.kept guaranteed, ?_⟩, .inr guaranteed⟩
      intro task running
      exact (safe task running).wait sound.transitive relies
  | start =>
      refine ⟨⟨holds, ?_⟩, .inl rfl⟩
      intro task running
      cases running
      exact sound.start holds
  | answer answered =>
      obtain ⟨guaranteed, continues⟩ := safe _ rfl _ (sound.reflexive _) _ _ answered
      refine ⟨⟨sound.kept guaranteed, ?_⟩, .inr guaranteed⟩
      intro task running
      cases running
      exact continues
  | finish => exact ⟨⟨holds, fun task running => by cases running⟩, .inl rfl⟩
  | crash =>
      have guaranteed := sound.crash holds
      exact ⟨⟨sound.kept guaranteed, fun task running => by cases running⟩, .inr guaranteed⟩

/-- Along every run the invariant holds, and every step keeps the guarantee. -/
theorem Session.Sound.reaches
    (sound : Sound answers environment restart program rely guarantee invariant post)
    {world : World} (holds : invariant world) {session : Session World Call Answer α}
    (reached : Reaches answers environment restart program world session) :
    session.Ordered answers rely guarantee invariant post := by
  induction reached with
  | refl => exact ⟨holds, fun task running => by cases running⟩
  | tail _ step ih => exact (sound.step ih step).1

/-- Running the program in a world that always answers in one of the possible
ways is a run of the session. -/
theorem Session.reaches_run {handle : (request : Call) → World → Answer request × World}
    (possible : ∀ request world, answers request world (handle request world).1 (handle request world).2)
    {initial world : World}
    (reached : Reaches answers environment restart program initial ⟨world, none⟩) :
    Reaches answers environment restart program initial
      ⟨(program.run handle world).2, some (.done (program.run handle world).1)⟩ := by
  have runs : ∀ (task : Program Call Answer α) (world : World),
      Relation.ReflTransGen (Step answers environment restart program) ⟨world, some task⟩
        ⟨(task.run handle world).2, some (.done (task.run handle world).1)⟩ := by
    intro task
    induction task with
    | done value => exact fun world => .refl
    | call request resume ih =>
        exact fun world => .head (.answer (possible request world)) (ih _ _)
  exact (reached.tail .start).trans (runs program world)

/-- A quantity that every step keeping the guarantee lets grow grows along
every run. -/
theorem Session.Sound.grows
    (sound : Sound answers environment restart program rely guarantee invariant post)
    {measure : World → Nat}
    (step : ∀ {world after}, guarantee world after → measure world ≤ measure after)
    {session later : Session World Call Answer α}
    (ordered : session.Ordered answers rely guarantee invariant post)
    (run : Relation.ReflTransGen (Step answers environment restart program) session later) :
    measure session.world ≤ measure later.world := by
  suffices both : later.Ordered answers rely guarantee invariant post ∧
      measure session.world ≤ measure later.world from both.2
  induction run with
  | refl => exact ⟨ordered, Nat.le_refl _⟩
  | tail _ last ih =>
      obtain ⟨ordered, bound⟩ := ih
      obtain ⟨next, same | guaranteed⟩ := sound.step ordered last
      · exact ⟨next, by rw [same]; exact bound⟩
      · exact ⟨next, Nat.le_trans bound (step guaranteed)⟩

end ConnectForge.Interaction
