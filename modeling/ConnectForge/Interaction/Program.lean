import Mathlib.Logic.Relation

namespace ConnectForge.Interaction

/-! Programs that talk to a world through calls.

A program is either finished or waiting for the answer to a call.  Everything
between two calls is pure, so the calls are the points at which other tasks run
and at which a crash can strike. -/

inductive Program (Call : Type) (Answer : Call → Type) (α : Type) where
  | done (value : α)
  | call (request : Call) (resume : Answer request → Program Call Answer α)

variable {Call : Type} {Answer : Call → Type} {α β : Type}

namespace Program

protected def bind : Program Call Answer α → (α → Program Call Answer β) → Program Call Answer β
  | done value, next => next value
  | call request resume, next => call request fun answer => (resume answer).bind next

instance : Monad (Program Call Answer) where
  pure := done
  bind := Program.bind

def ask (request : Call) : Program Call Answer (Answer request) := call request done

@[simp] theorem pure_eq (value : α) : (pure value : Program Call Answer α) = done value := rfl

@[simp] theorem done_bind (value : α) (next : α → Program Call Answer β) :
    (done value >>= next) = next value := rfl

@[simp] theorem call_bind (request : Call) (resume : Answer request → Program Call Answer α)
    (next : α → Program Call Answer β) :
    (call request resume >>= next) = call request fun answer => resume answer >>= next := rfl

theorem bind_assoc {γ : Type} (program : Program Call Answer α) (first : α → Program Call Answer β)
    (second : β → Program Call Answer γ) :
    (program >>= first) >>= second = program >>= fun value => first value >>= second := by
  induction program with
  | done value => rfl
  | call request resume ih =>
      rw [call_bind, call_bind, call_bind]
      congr 1
      funext answer
      exact ih answer

@[simp] theorem ask_bind (request : Call) (next : Answer request → Program Call Answer β) :
    ((ask request : Program Call Answer _) >>= next) = call request next := rfl

end Program

section Calls

/-! The calls a program can make, whatever the answers are. -/

variable {good : Call → Prop}

def Program.Makes (good : Call → Prop) : Program Call Answer α → Prop
  | .done _ => True
  | .call request resume => good request ∧ ∀ answer, (resume answer).Makes good

theorem makes_ask {request : Call} (holds : good request) :
    (Program.ask request : Program Call Answer _).Makes good := ⟨holds, fun _ => trivial⟩

theorem Program.Makes.bind {program : Program Call Answer α} {next : α → Program Call Answer β}
    (first : program.Makes good) (second : ∀ value, (next value).Makes good) :
    (program >>= next).Makes good := by
  induction program with
  | done value => exact second value
  | call request resume ih => exact ⟨first.1, fun answer => ih answer (first.2 answer)⟩

end Calls

section Run

/-! Programs in a world that answers every call in one way. -/

variable {World : Type} (handle : (request : Call) → World → Answer request × World)

def Program.run : Program Call Answer α → World → α × World
  | .done value, world => (value, world)
  | .call request resume, world =>
      (resume (handle request world).1).run (handle request world).2

@[simp] theorem run_done (value : α) (world : World) :
    (Program.done value : Program Call Answer α).run handle world = (value, world) := rfl

@[simp] theorem run_call (request : Call) (resume : Answer request → Program Call Answer α)
    (world : World) :
    (Program.call request resume).run handle world =
      (resume (handle request world).1).run handle (handle request world).2 := rfl

@[simp] theorem run_bind (program : Program Call Answer α) (next : α → Program Call Answer β)
    (world : World) :
    (program >>= next).run handle world =
      (next (program.run handle world).1).run handle (program.run handle world).2 := by
  induction program generalizing world with
  | done value => rfl
  | call request resume ih =>
      rw [Program.call_bind, run_call, ih, run_call]

end Run

section Crashes

/-! Programs cut short, between two calls or inside one. -/

variable {World : Type} (handle : (request : Call) → World → Answer request × World)
  (torn : Call → World → World → Prop)

/-- What a crash leaves of a run: the calls before it, and perhaps a part of the
one under way. -/
inductive Crashes : Program Call Answer α → World → World → Prop where
  | before {program world} : Crashes program world world
  | inside {request resume world left} (partly : torn request world left) :
      Crashes (.call request resume) world left
  | later {request resume world left}
      (rest : Crashes (resume (handle request world).1) (handle request world).2 left) :
      Crashes (.call request resume) world left

variable {handle torn} {world left : World}

theorem crashes_done {value : α} (crash : Crashes handle torn (.done value) world left) :
    left = world := by
  cases crash
  rfl

theorem crashes_call {request : Call} {resume : Answer request → Program Call Answer α}
    (crash : Crashes handle torn (.call request resume) world left) :
    left = world ∨ torn request world left ∨
      ∃ answer after, handle request world = (answer, after) ∧
        Crashes handle torn (resume answer) after left := by
  cases crash with
  | before => exact .inl rfl
  | inside partly => exact .inr (.inl partly)
  | later rest => exact .inr (.inr ⟨_, _, rfl, rest⟩)

/-- A crash may come after the last call. -/
theorem Crashes.after (program : Program Call Answer α) (world : World) :
    Crashes handle torn program world (program.run handle world).2 := by
  induction program generalizing world with
  | done value => exact .before
  | call request resume ih => exact .later (ih _ _)

end Crashes

section Safety

/-! Programs in a world that answers calls as it likes and moves on its own in
between. -/

variable {World : Type} (answers : (request : Call) → World → Answer request → World → Prop)
  (rely guarantee : World → World → Prop)

/-- However the world moves and whatever it answers, every call keeps the
guarantee and the program ends, if it ends, with the postcondition. -/
def Safe (post : α → World → Prop) : Program Call Answer α → World → Prop
  | .done value, world => ∀ moved, rely world moved → post value moved
  | .call request resume, world => ∀ moved, rely world moved →
      ∀ answer after, answers request moved answer after →
        guarantee moved after ∧ Safe post (resume answer) after

variable {answers rely guarantee} {post : α → World → Prop}

theorem Safe.wait {program : Program Call Answer α} {world moved : World}
    (transitive : ∀ {first second third}, rely first second → rely second third → rely first third)
    (safe : Safe answers rely guarantee post program world) (moves : rely world moved) :
    Safe answers rely guarantee post program moved := by
  cases program with
  | done value => exact fun after later => safe after (transitive moves later)
  | call request resume =>
      exact fun after later => safe after (transitive moves later)

theorem Safe.done {value : α} {world : World}
    (holds : ∀ moved, rely world moved → post value moved) :
    Safe answers rely guarantee post (.done value) world := holds

theorem Safe.call {request : Call} {resume : Answer request → Program Call Answer α} {world : World}
    (continues : ∀ moved, rely world moved → ∀ answer after, answers request moved answer after →
      guarantee moved after ∧ Safe answers rely guarantee post (resume answer) after) :
    Safe answers rely guarantee post (.call request resume) world := continues

theorem Safe.ask {request : Call} {post : Answer request → World → Prop} {world : World}
    (holds : ∀ answer after, answers request world answer after → post answer after) :
    Safe answers Eq (fun _ _ => True) post (Program.ask request) world := by
  rintro _ rfl answer after answered
  refine ⟨trivial, ?_⟩
  rintro _ rfl
  exact holds answer after answered

theorem Safe.weaken {post' : α → World → Prop} {program : Program Call Answer α} {world : World}
    (safe : Safe answers rely guarantee post program world)
    (weaker : ∀ value world, post value world → post' value world) :
    Safe answers rely guarantee post' program world := by
  induction program generalizing world with
  | done value => exact fun moved moves => weaker value moved (safe moved moves)
  | call request resume ih =>
      intro moved moves answer after answered
      obtain ⟨kept, continues⟩ := safe moved moves answer after answered
      exact ⟨kept, ih answer continues⟩

theorem Safe.bind {program : Program Call Answer α} {next : α → Program Call Answer β}
    {post' : β → World → Prop} {world : World} (reflexive : ∀ world, rely world world)
    (first : Safe answers rely guarantee post program world)
    (second : ∀ value world, post value world → Safe answers rely guarantee post' (next value) world) :
    Safe answers rely guarantee post' (program >>= next) world := by
  induction program generalizing world with
  | done value => exact second value world (first world (reflexive world))
  | call request resume ih =>
      intro moved moves answer after answered
      obtain ⟨kept, continues⟩ := first moved moves answer after answered
      exact ⟨kept, ih answer continues⟩

end Safety

section Ends

/-! Programs that run to their end alone, in a world that answers calls as it
likes. -/

variable {World : Type} (answers : (request : Call) → World → Answer request → World → Prop)

inductive Ends : Program Call Answer α → World → α → World → Prop where
  | done {value world} : Ends (.done value) world value world
  | call {request resume world answer after value final}
      (answered : answers request world answer after) (rest : Ends (resume answer) after value final) :
      Ends (.call request resume) world value final

variable {answers} {world middle final : World}

theorem Ends.ask {request : Call} {answer : Answer request}
    (answered : answers request world answer final) :
    Ends answers (Program.ask request) world answer final := .call answered .done

theorem Ends.bind {program : Program Call Answer α} {next : α → Program Call Answer β} {value : α}
    {result : β} (first : Ends answers program world value middle)
    (second : Ends answers (next value) middle result final) :
    Ends answers (program >>= next) world result final := by
  induction first with
  | done => exact second
  | call answered _ ih => exact .call answered (ih second)

theorem Ends.run {handle : (request : Call) → World → Answer request × World}
    (possible : ∀ request world, answers request world (handle request world).1 (handle request world).2)
    (program : Program Call Answer α) (world : World) :
    Ends answers program world (program.run handle world).1 (program.run handle world).2 := by
  induction program generalizing world with
  | done value => exact .done
  | call request resume ih => exact .call (possible request world) (ih _ _)

theorem ends_done {value result : α} (ended : Ends answers (.done value) world result final) :
    result = value ∧ final = world := by
  cases ended
  exact ⟨rfl, rfl⟩

theorem ends_call {request : Call} {resume : Answer request → Program Call Answer α} {result : α}
    (ended : Ends answers (.call request resume) world result final) :
    ∃ answer after, answers request world answer after ∧
      Ends answers (resume answer) after result final := by
  cases ended with
  | call answered rest => exact ⟨_, _, answered, rest⟩

theorem ends_ask {request : Call} {next : Answer request → Program Call Answer β} {result : β}
    (ended : Ends answers (Program.ask request >>= next) world result final) :
    ∃ answer after, answers request world answer after ∧
      Ends answers (next answer) after result final := ends_call ended

theorem ends_bind {program : Program Call Answer α} {next : α → Program Call Answer β} {result : β}
    (ended : Ends answers (program >>= next) world result final) :
    ∃ value after, Ends answers program world value after ∧
      Ends answers (next value) after result final := by
  induction program generalizing world with
  | done value => exact ⟨value, world, .done, ended⟩
  | call request resume ih =>
      obtain ⟨answer, after, answered, rest⟩ := ends_call ended
      obtain ⟨value, later, first, last⟩ := ih answer rest
      exact ⟨value, later, .call answered first, last⟩

/-- An invariant of the world that the calls of a program keep. -/
theorem Ends.keeps {good : Call → Prop} (invariant : World → Prop) {program : Program Call Answer α}
    {value : α} (ended : Ends answers program world value final) (makes : program.Makes good)
    (step : ∀ request before answer after, good request → invariant before →
      answers request before answer after → invariant after)
    (holds : invariant world) : invariant final := by
  induction ended with
  | done => exact holds
  | call answered _ ih => exact ih (makes.2 _) (step _ _ _ _ makes.1 holds answered)

/-- A safe program that runs alone ends with its postcondition. -/
theorem Safe.ends {rely guarantee : World → World → Prop} {post : α → World → Prop}
    {program : Program Call Answer α} {value : α} (reflexive : ∀ world, rely world world)
    (safe : Safe answers rely guarantee post program world)
    (ended : Ends answers program world value final) : post value final := by
  induction ended with
  | done => exact safe _ (reflexive _)
  | call answered _ ih => exact ih (safe _ (reflexive _) _ _ answered).2

end Ends

end ConnectForge.Interaction
