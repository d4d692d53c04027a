import Mathlib.Algebra.BigOperators.Group.List.Basic
import Mathlib.Tactic.Abel
import ConnectForge.Interaction.Tasks

namespace ConnectForge.Interaction

/-! Accounts kept between a world and the tasks in it.

What the world has been charged with is what it has been paid back and what the
tasks still owe.  The amounts can be numbers, or bags of things. -/

variable {Call : Type} {Answer : Call → Type} {α World Memo M : Type} [AddCancelCommMonoid M]

variable (answers : (request : Call) → World → Answer request → World → Prop)
  (note : Memo → (request : Call) → Answer request → Memo) (fresh : Memo)
  (starts : Program Call Answer α → Prop) (allowed : World → Memo → Call → Prop)

/-- What has to be shown of every step: what it charges is paid back or owed. -/
structure Ledger (permits : Memo → Call → Prop) (ends : α → Memo → Prop)
    (charged paid : World → M) (owes : Memo → M) : Prop where
  follows : ∀ program, starts program → program.Follows permits note ends fresh
  fresh : owes fresh = 0
  step : ∀ {world after memo request answer}, permits memo request → allowed world memo request →
    answers request world answer after →
    charged after + paid world + owes memo =
      charged world + paid after + owes (note memo request answer)

def Tasks.owed (owes : Memo → M) (tasks : List (Task Memo Call Answer α)) : M :=
  (tasks.map fun task => owes task.memo).sum

variable {answers note fresh starts allowed} {permits : Memo → Call → Prop} {ends : α → Memo → Prop}
  {charged paid : World → M} {owes : Memo → M}

@[simp] theorem Tasks.owed_cons (task : Task Memo Call Answer α)
    (tasks : List (Task Memo Call Answer α)) :
    Tasks.owed owes (task :: tasks) = owes task.memo + Tasks.owed owes tasks := by
  simp [Tasks.owed]

@[simp] theorem Tasks.owed_append (first second : List (Task Memo Call Answer α)) :
    Tasks.owed owes (first ++ second) = Tasks.owed owes first + Tasks.owed owes second := by
  simp [Tasks.owed]

/-- A task whose calls keep to a protocol keeps to it whatever the others do. -/
theorem Tasks.Reaches.follows
    (follows : ∀ program, starts program → program.Follows permits note ends fresh) {world : World}
    {state : Tasks World Memo Call Answer α}
    (reached : Reaches answers note fresh starts allowed world state) :
    ∀ task ∈ state.tasks, task.program.Follows permits note ends task.memo := by
  have sound : Sound answers note fresh starts allowed permits ends (fun _ => True) (fun _ _ => True)
      (fun _ _ => True) :=
    ⟨follows, fun _ _ => ⟨trivial, fun _ => trivial⟩,
      fun _ _ _ _ _ => ⟨trivial, trivial, fun _ _ _ => ⟨trivial, trivial⟩⟩, fun _ => trivial⟩
  exact (sound.reaches trivial reached).follows

theorem Ledger.balanced
    (ledger : Ledger answers note fresh starts allowed permits ends charged paid owes) {world : World}
    (level : charged world = paid world) {state : Tasks World Memo Call Answer α}
    (reached : Tasks.Reaches answers note fresh starts allowed world state) :
    charged state.world = paid state.world + Tasks.owed owes state.tasks := by
  induction reached with
  | refl => simpa [Tasks.owed] using level
  | tail reached step ih =>
      have follows := Tasks.Reaches.follows ledger.follows reached
      cases step with
      | spawn started => simpa [ledger.fresh] using ih
      | @answer world after memo request resume answer before rest met answered =>
          have permitted := (follows ⟨memo, .call request resume⟩ (by simp)).1
          have moved := ledger.step permitted met answered
          simp only [Tasks.owed_append, Tasks.owed_cons] at ih ⊢
          apply add_right_cancel (b := paid world + owes memo)
          calc charged after + (paid world + owes memo)
              = charged after + paid world + owes memo := by abel
            _ = charged world + paid after + owes (note memo request answer) := moved
            _ = paid after + (Tasks.owed owes before + (owes (note memo request answer) +
                  Tasks.owed owes rest)) + (paid world + owes memo) := by
                rw [ih]
                abel

/-- Once every task has ended without owing anything, the account is settled. -/
theorem Ledger.settled
    (ledger : Ledger answers note fresh starts allowed permits ends charged paid owes) {world : World}
    (level : charged world = paid world) (clears : ∀ {value memo}, ends value memo → owes memo = 0)
    {state : Tasks World Memo Call Answer α}
    (reached : Tasks.Reaches answers note fresh starts allowed world state)
    (ended : ∀ task ∈ state.tasks, ∃ value, task.program = .done value) :
    charged state.world = paid state.world := by
  have nothing : Tasks.owed owes state.tasks = 0 := by
    apply List.sum_eq_zero
    intro amount member
    obtain ⟨task, known, rfl⟩ := List.mem_map.mp member
    obtain ⟨value, finished⟩ := ended task known
    have kept := reached.follows ledger.follows task known
    rw [finished] at kept
    exact clears kept
  rw [ledger.balanced level reached, nothing, add_zero]

end ConnectForge.Interaction
