import ConnectForge.Interaction.Program

namespace ConnectForge.Interaction

/-! One task that runs a program over and over, next to any number of helper
tasks that share its world and run another one. -/

variable {Call : Type} {Answer : Call → Type} {α β World : Type}

structure Pool (World Call : Type) (Answer : Call → Type) (α β : Type) where
  world : World
  task : Option (Program Call Answer α)
  helpers : List (Program Call Answer β)

variable (answers helperAnswers : (request : Call) → World → Answer request → World → Prop)
  (environment : World → World → Prop) (program : Program Call Answer α)
  (helper : Program Call Answer β)

inductive Pool.Step : Pool World Call Answer α β → Pool World Call Answer α β → Prop where
  | environment {world moved task helpers} (moves : environment world moved) :
      Step ⟨world, task, helpers⟩ ⟨moved, task, helpers⟩
  | start {world helpers} : Step ⟨world, none, helpers⟩ ⟨world, some program, helpers⟩
  | answer {world after request resume answer helpers}
      (answered : answers request world answer after) :
      Step ⟨world, some (.call request resume), helpers⟩ ⟨after, some (resume answer), helpers⟩
  | finish {world value helpers} : Step ⟨world, some (.done value), helpers⟩ ⟨world, none, helpers⟩
  | spawn {world task helpers} : Step ⟨world, task, helpers⟩ ⟨world, task, helper :: helpers⟩
  | help {world after task before request resume answer rest}
      (answered : helperAnswers request world answer after) :
      Step ⟨world, task, before ++ .call request resume :: rest⟩
        ⟨after, task, before ++ resume answer :: rest⟩

def Pool.Reaches (world : World) (pool : Pool World Call Answer α β) : Prop :=
  Relation.ReflTransGen (Step answers helperAnswers environment program helper)
    ⟨world, none, []⟩ pool

/-- What has to be shown for the task to stay safe: `idle` holds between two
runs of it, and helpers do nothing it does not rely on, whatever they see. -/
structure Pool.Sound (rely guarantee : World → World → Prop) (idle : World → Prop) : Prop where
  reflexive : ∀ world, rely world world
  transitive : ∀ {first second third}, rely first second → rely second third → rely first third
  idleStable : ∀ {world moved}, rely world moved → idle world → idle moved
  environment : ∀ {world moved}, environment world moved → rely world moved
  helper : ∀ world, Safe helperAnswers (fun _ _ => True) rely (fun _ _ => True) helper world
  start : ∀ {world}, idle world → Safe answers rely guarantee (fun _ world => idle world) program world

structure Pool.Ordered (rely guarantee : World → World → Prop) (idle : World → Prop)
    (pool : Pool World Call Answer α β) : Prop where
  resting : pool.task = none → idle pool.world
  task : ∀ task, pool.task = some task →
    Safe answers rely guarantee (fun _ world => idle world) task pool.world
  helpers : ∀ helper ∈ pool.helpers,
    Safe helperAnswers (fun _ _ => True) rely (fun _ _ => True) helper pool.world

variable {answers helperAnswers environment program helper}
  {rely guarantee : World → World → Prop} {idle : World → Prop}

theorem Pool.Step.help_first {world after : World} {task : Option (Program Call Answer α)}
    {request : Call} {resume : Answer request → Program Call Answer β}
    {rest : List (Program Call Answer β)} (answer : Answer request) (answered : helperAnswers request world answer after) :
    Step answers helperAnswers environment program helper
      ⟨world, task, .call request resume :: rest⟩ ⟨after, task, resume answer :: rest⟩ := by
  change Step _ _ _ _ _ ⟨world, task, [] ++ .call request resume :: rest⟩
    ⟨after, task, [] ++ resume answer :: rest⟩
  exact .help answered

/-- While the helpers wait, the task can run to its end in a world that always
answers in one of the possible ways. -/
theorem Pool.reaches_run {handle : (request : Call) → World → Answer request × World}
    (possible : ∀ request world, answers request world (handle request world).1 (handle request world).2)
    {initial world : World} {helpers : List (Program Call Answer β)}
    (reached : Reaches answers helperAnswers environment program helper initial
      ⟨world, none, helpers⟩) :
    Reaches answers helperAnswers environment program helper initial
      ⟨(program.run handle world).2, none, helpers⟩ := by
  have runs : ∀ (task : Program Call Answer α) (world : World),
      Relation.ReflTransGen (Step answers helperAnswers environment program helper)
        ⟨world, some task, helpers⟩ ⟨(task.run handle world).2, none, helpers⟩ := by
    intro task
    induction task with
    | done value => exact fun world => .single .finish
    | call request resume ih =>
        exact fun world => .head (.answer (possible request world)) (ih _ _)
  exact (reached.tail .start).trans (runs program world)

theorem Safe.anywhere {task : Program Call Answer β} {world : World}
    (safe : Safe helperAnswers (fun _ _ => True) rely (fun _ _ => True) task world) (moved : World) :
    Safe helperAnswers (fun _ _ => True) rely (fun _ _ => True) task moved :=
  safe.wait (fun _ _ => trivial) trivial

theorem Pool.Sound.step
    (sound : Sound answers helperAnswers environment program helper rely guarantee idle)
    {pool next : Pool World Call Answer α β}
    (ordered : Ordered answers helperAnswers rely guarantee idle pool)
    (step : Step answers helperAnswers environment program helper pool next) :
    Ordered answers helperAnswers rely guarantee idle next := by
  obtain ⟨resting, task, helpers⟩ := ordered
  cases step with
  | environment moves =>
      have relies := sound.environment moves
      exact ⟨fun stopped => sound.idleStable relies (resting stopped),
        fun running found => (task running found).wait sound.transitive relies,
        fun other member => (helpers other member).anywhere _⟩
  | start =>
      refine ⟨nofun, ?_, helpers⟩
      intro running found
      cases found
      exact sound.start (resting rfl)
  | answer answered =>
      obtain ⟨_, continues⟩ := task _ rfl _ (sound.reflexive _) _ _ answered
      refine ⟨nofun, ?_, fun other member => (helpers other member).anywhere _⟩
      intro running found
      cases found
      exact continues
  | finish =>
      exact ⟨fun _ => task _ rfl _ (sound.reflexive _), nofun, helpers⟩
  | spawn =>
      refine ⟨resting, task, ?_⟩
      intro other member
      rcases List.mem_cons.mp member with rfl | earlier
      · exact sound.helper _
      · exact helpers other earlier
  | @help _ _ _ _ request resume _ _ answered =>
      obtain ⟨relies, continues⟩ := helpers (.call request resume) (by simp) _ trivial _ _ answered
      refine ⟨fun stopped => sound.idleStable relies (resting stopped),
        fun running found => (task running found).wait sound.transitive relies, ?_⟩
      intro other member
      rcases List.mem_append.mp member with before | here
      · exact (helpers other (by simp [before])).anywhere _
      · rcases List.mem_cons.mp here with rfl | after
        · exact continues
        · exact (helpers other (by simp [after])).anywhere _

theorem Pool.Sound.reaches
    (sound : Sound answers helperAnswers environment program helper rely guarantee idle)
    {world : World} (holds : idle world) {pool : Pool World Call Answer α β}
    (reached : Reaches answers helperAnswers environment program helper world pool) :
    Ordered answers helperAnswers rely guarantee idle pool := by
  induction reached with
  | refl =>
      exact ⟨fun _ => holds, nofun, nofun⟩
  | tail _ step ih => exact sound.step ih step

end ConnectForge.Interaction
