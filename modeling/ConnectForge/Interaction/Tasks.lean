import ConnectForge.Interaction.Program

namespace ConnectForge.Interaction

/-! Any number of tasks over one world, each with a memo of what it has been
answered so far.  A task runs its program one call at a time, and the others run
in between. -/

variable {Call : Type} {Answer : Call → Type} {α β World Memo : Type}

section Protocols

/-! Programs that keep to a protocol: which calls may come next depends on the
answers so far. -/

variable (permits : Memo → Call → Prop)
  (note : Memo → (request : Call) → Answer request → Memo)

def Program.Follows (ends : α → Memo → Prop) : Program Call Answer α → Memo → Prop
  | .done value, memo => ends value memo
  | .call request resume, memo => permits memo request ∧
      ∀ answer, (resume answer).Follows ends (note memo request answer)

variable {permits note} {ends : α → Memo → Prop} {memo : Memo}

theorem Program.Follows.bind {ends' : β → Memo → Prop} {program : Program Call Answer α}
    {next : α → Program Call Answer β} (first : program.Follows permits note ends memo)
    (second : ∀ value memo, ends value memo → (next value).Follows permits note ends' memo) :
    (program >>= next).Follows permits note ends' memo := by
  induction program generalizing memo with
  | done value => exact second value memo first
  | call request resume ih => exact ⟨first.1, fun answer => ih answer (first.2 answer)⟩

theorem follows_ask {request : Call} {ends : Answer request → Memo → Prop}
    (permitted : permits memo request) (holds : ∀ answer, ends answer (note memo request answer)) :
    (Program.ask request : Program Call Answer _).Follows permits note ends memo :=
  ⟨permitted, holds⟩

theorem follows_call {request : Call} {next : Answer request → Program Call Answer α}
    (permitted : permits memo request)
    (rest : ∀ answer, (next answer).Follows permits note ends (note memo request answer)) :
    (Program.ask request >>= next).Follows permits note ends memo :=
  ⟨permitted, rest⟩

/-- A program that keeps to two protocols can remember both. -/
theorem Program.Follows.both {Memo' : Type} {permits' : Memo' → Call → Prop}
    {note' : Memo' → (request : Call) → Answer request → Memo'} {ends' : α → Memo' → Prop} {memo' : Memo'}
    {program : Program Call Answer α} (first : program.Follows permits note ends memo)
    (second : program.Follows permits' note' ends' memo') :
    program.Follows (fun memo request => permits memo.1 request ∧ permits' memo.2 request)
      (fun memo request answer => (note memo.1 request answer, note' memo.2 request answer))
      (fun value memo => ends value memo.1 ∧ ends' value memo.2) (memo, memo') := by
  induction program generalizing memo memo' with
  | done value => exact ⟨first, second⟩
  | call request resume ih =>
      exact ⟨⟨first.1, second.1⟩, fun answer => ih answer (first.2 answer) (second.2 answer)⟩

/-- What every permitted call keeps of the memo holds of it at every call. -/
theorem Program.Follows.keeping (known : Memo → Prop)
    (kept : ∀ memo request answer, permits memo request → known memo → known (note memo request answer))
    {program : Program Call Answer α} (follows : program.Follows permits note ends memo)
    (knows : known memo) :
    program.Follows (fun memo request => permits memo request ∧ known memo) note ends memo := by
  induction program generalizing memo with
  | done value => exact follows
  | call request resume ih =>
      exact ⟨⟨follows.1, knows⟩, fun answer => ih answer (follows.2 answer) (kept _ _ _ follows.1 knows)⟩

end Protocols

structure Task (Memo Call : Type) (Answer : Call → Type) (α : Type) where
  memo : Memo
  program : Program Call Answer α

structure Tasks (World Memo Call : Type) (Answer : Call → Type) (α : Type) where
  world : World
  tasks : List (Task Memo Call Answer α)

variable (answers : (request : Call) → World → Answer request → World → Prop)
  (note : Memo → (request : Call) → Answer request → Memo) (fresh : Memo)
  (starts : Program Call Answer α → Prop) (allowed : World → Memo → Call → Prop)

/-- A task is started, or one of those running gets an answer. -/
inductive Tasks.Step : Tasks World Memo Call Answer α → Tasks World Memo Call Answer α → Prop where
  | spawn {world tasks program} (started : starts program) :
      Step ⟨world, tasks⟩ ⟨world, ⟨fresh, program⟩ :: tasks⟩
  | answer {world after memo request resume answer before rest} (met : allowed world memo request)
      (answered : answers request world answer after) :
      Step ⟨world, before ++ ⟨memo, .call request resume⟩ :: rest⟩
        ⟨after, before ++ ⟨note memo request answer, resume answer⟩ :: rest⟩

def Tasks.Reaches (world : World) (state : Tasks World Memo Call Answer α) : Prop :=
  Relation.ReflTransGen (Step answers note fresh starts allowed) ⟨world, []⟩ state

section Schedules

/-! One step more. -/

variable {answers note fresh starts allowed} {world current : World}

theorem Tasks.Reaches.start {tasks : List (Task Memo Call Answer α)} {program : Program Call Answer α}
    (reached : Reaches answers note fresh starts allowed world ⟨current, tasks⟩)
    (started : starts program) :
    Reaches answers note fresh starts allowed world ⟨current, ⟨fresh, program⟩ :: tasks⟩ :=
  reached.tail (.spawn started)

theorem Tasks.Reaches.answer (before : List (Task Memo Call Answer α))
    {rest : List (Task Memo Call Answer α)} {memo : Memo} {request : Call}
    {resume : Answer request → Program Call Answer α} {answer : Answer request} {after : World}
    (reached : Reaches answers note fresh starts allowed world
      ⟨current, before ++ ⟨memo, .call request resume⟩ :: rest⟩)
    (met : allowed current memo request) (answered : answers request current answer after) :
    Reaches answers note fresh starts allowed world
      ⟨after, before ++ ⟨note memo request answer, resume answer⟩ :: rest⟩ :=
  reached.tail (.answer met answered)

/-- What every answer keeps holds of the world, whatever the tasks are. -/
theorem Tasks.Reaches.keeps (invariant : World → Prop)
    (kept : ∀ world request answer after, invariant world → answers request world answer after →
      invariant after) (holds : invariant world) {state : Tasks World Memo Call Answer α}
    (reached : Reaches answers note fresh starts allowed world state) : invariant state.world := by
  induction reached with
  | refl => exact holds
  | tail _ step ih =>
      cases step with
      | spawn _ => exact ih
      | answer _ answered => exact kept _ _ _ _ ih answered

end Schedules

/-- What has to be shown of every step: the invariant of the world, what a task
knows of it, and what two tasks never know at once. -/
structure Tasks.Sound (permits : Memo → Call → Prop) (ends : α → Memo → Prop)
    (invariant : World → Prop) (knows : World → Memo → Prop) (apart : Memo → Memo → Prop) : Prop where
  follows : ∀ program, starts program → program.Follows permits note ends fresh
  spawn : ∀ world, invariant world → knows world fresh ∧ ∀ other, apart fresh other
  step : ∀ {world after memo request answer}, invariant world → knows world memo →
    permits memo request → allowed world memo request → answers request world answer after →
    invariant after ∧ knows after (note memo request answer) ∧
      ∀ other, knows world other → apart memo other →
        knows after other ∧ apart (note memo request answer) other
  symmetric : ∀ {left right}, apart left right → apart right left

variable {answers note fresh starts allowed} {permits : Memo → Call → Prop} {ends : α → Memo → Prop}
  {invariant : World → Prop} {knows : World → Memo → Prop} {apart : Memo → Memo → Prop}

structure Tasks.Orderly (note : Memo → (request : Call) → Answer request → Memo)
    (permits : Memo → Call → Prop) (ends : α → Memo → Prop) (invariant : World → Prop)
    (knows : World → Memo → Prop) (apart : Memo → Memo → Prop)
    (state : Tasks World Memo Call Answer α) : Prop where
  world : invariant state.world
  follows : ∀ task ∈ state.tasks, task.program.Follows permits note ends task.memo
  knows : ∀ task ∈ state.tasks, knows state.world task.memo
  apart : state.tasks.Pairwise fun left right => apart left.memo right.memo

theorem Tasks.Orderly.step (sound : Sound answers note fresh starts allowed permits ends invariant
      knows apart) {state later : Tasks World Memo Call Answer α}
    (orderly : state.Orderly note permits ends invariant knows apart)
    (step : Step answers note fresh starts allowed state later) :
    later.Orderly note permits ends invariant knows apart := by
  cases step with
  | @spawn world tasks program started =>
      obtain ⟨known, alone⟩ := sound.spawn world orderly.world
      refine ⟨orderly.world, ?_, ?_, ?_⟩
      · intro task member
        rcases List.mem_cons.mp member with rfl | old
        · exact sound.follows program started
        · exact orderly.follows task old
      · intro task member
        rcases List.mem_cons.mp member with rfl | old
        · exact known
        · exact orderly.knows task old
      · exact List.pairwise_cons.mpr ⟨fun task _ => alone task.memo, orderly.apart⟩
  | @answer world after memo request resume answer before rest met answered =>
      have here : (⟨memo, .call request resume⟩ : Task Memo Call Answer α) ∈
          before ++ ⟨memo, .call request resume⟩ :: rest := by simp
      obtain ⟨permitted, continues⟩ := orderly.follows _ here
      obtain ⟨kept, known, others⟩ :=
        sound.step orderly.world (orderly.knows _ here) permitted met answered
      obtain ⟨front, back, across⟩ := List.pairwise_append.mp orderly.apart
      obtain ⟨behind, tail⟩ := List.pairwise_cons.mp back
      have left : ∀ task ∈ before, apart memo task.memo := fun task member =>
        sound.symmetric (across task member _ List.mem_cons_self)
      have either : ∀ {task : Task Memo Call Answer α},
          task ∈ before ++ ⟨note memo request answer, resume answer⟩ :: rest →
          task = ⟨note memo request answer, resume answer⟩ ∨
            (task ∈ before ++ ⟨memo, .call request resume⟩ :: rest ∧ apart memo task.memo) := by
        intro task member
        rcases List.mem_append.mp member with first | last
        · exact .inr ⟨List.mem_append_left _ first, left task first⟩
        · rcases List.mem_cons.mp last with rfl | later
          · exact .inl rfl
          · exact .inr ⟨List.mem_append_right _ (List.mem_cons_of_mem _ later), behind task later⟩
      refine ⟨kept, ?_, ?_, ?_⟩
      · intro task member
        rcases either member with rfl | ⟨old, _⟩
        · exact continues answer
        · exact orderly.follows task old
      · intro task member
        rcases either member with rfl | ⟨old, away⟩
        · exact known
        · exact (others _ (orderly.knows task old) away).1
      · refine List.pairwise_append.mpr ⟨front, List.pairwise_cons.mpr ⟨?_, tail⟩, ?_⟩
        · intro task member
          have old := orderly.knows task (List.mem_append_right _ (List.mem_cons_of_mem _ member))
          exact (others _ old (behind task member)).2
        · intro task member other last
          rcases List.mem_cons.mp last with rfl | later
          · have old := orderly.knows task (List.mem_append_left _ member)
            exact sound.symmetric (others _ old (left task member)).2
          · exact across task member other (List.mem_cons_of_mem _ later)

/-- What every step keeps holds however the tasks are interleaved. -/
theorem Tasks.Sound.reaches (sound : Sound answers note fresh starts allowed permits ends invariant
      knows apart) {world : World} (holds : invariant world) {state : Tasks World Memo Call Answer α}
    (reached : Reaches answers note fresh starts allowed world state) :
    state.Orderly note permits ends invariant knows apart := by
  induction reached with
  | refl => exact ⟨holds, nofun, nofun, .nil⟩
  | tail _ step ih => exact ih.step sound step

end ConnectForge.Interaction
