import ConnectForge.Interaction.Program

namespace ConnectForge.Interaction

/-! Programs among others, and programs run over and over. -/

variable {Call : Type} {Answer : Call → Type} {α World : Type}

section Others

/-! Between two calls of a program, and before its first, others may move the
world. -/

def Amid (others : World → World → Prop)
    (answers : (request : Call) → World → Answer request → World → Prop) (request : Call) (world : World)
    (answer : Answer request) (after : World) : Prop :=
  ∃ moved, others world moved ∧ answers request moved answer after

variable {others : World → World → Prop}
  {answers : (request : Call) → World → Answer request → World → Prop} {world final : World}

/-- Others may be idle. -/
theorem Ends.amid {program : Program Call Answer α} {value : α} (reflexive : ∀ world, others world world)
    (ended : Ends answers program world value final) :
    Ends (Amid others answers) program world value final := by
  induction ended with
  | done => exact .done
  | call answered _ ih => exact .call ⟨_, reflexive _, answered⟩ ih

/-- What holds along all moves and all answers holds along a program. -/
theorem Ends.along (related : World → World → Prop) (reflexive : ∀ world, related world world)
    (transitive : ∀ {first second third}, related first second → related second third →
      related first third)
    (moves : ∀ {world moved}, others world moved → related world moved)
    (calls : ∀ {request world answer after}, answers request world answer after → related world after)
    {program : Program Call Answer α} {value : α}
    (ended : Ends (Amid others answers) program world value final) : related world final := by
  induction ended with
  | done => exact reflexive _
  | call answered _ ih =>
      obtain ⟨moved, moved', answered⟩ := answered
      exact transitive (moves moved') (transitive (calls answered) ih)

end Others

section Loops

/-! `while` loops over a program that can fail. -/

variable {ε : Type} (answers : (request : Call) → World → Answer request → World → Prop)
  (body : Program Call Answer (Except ε α)) (stops : α → Prop)

/-- Rounds of the body until one returns a value that stops the loop, with the
values of all rounds. -/
inductive Repeats : World → List α → World → Prop where
  | last {world value after} (round : Ends answers body world (.ok value) after) (stop : stops value) :
      Repeats world [value] after
  | more {world value middle values after} (round : Ends answers body world (.ok value) middle)
      (go : ¬ stops value) (rest : Repeats middle values after) :
      Repeats world (value :: values) after

variable {answers body stops} {world after : World} {values : List α}

/-- The last round is the one that stops. -/
theorem Repeats.final (repeats : Repeats answers body stops world values after) :
    ∃ before value middle, values = before ++ [value] ∧ stops value ∧
      Ends answers body middle (.ok value) after := by
  induction repeats with
  | last round stop => exact ⟨[], _, _, rfl, stop, round⟩
  | @more world value middle values after _ _ _ ih =>
      obtain ⟨before, last, start, rfl, stop, round⟩ := ih
      exact ⟨value :: before, last, start, rfl, stop, round⟩

theorem Repeats.along (related : World → World → Prop)
    (transitive : ∀ {first second third}, related first second → related second third →
      related first third)
    (rounds : ∀ {world value after}, Ends answers body world (.ok value) after → related world after)
    (repeats : Repeats answers body stops world values after) : related world after := by
  induction repeats with
  | last round _ => exact rounds round
  | more round _ _ ih => exact transitive (rounds round) ih

/-- A loop ends if every round can be made, and one that does not stop it makes
progress. -/
theorem repeats_of_progress (invariant : World → Prop) (remaining : World → Nat)
    (round : ∀ world, invariant world → ∃ value after, Ends answers body world (.ok value) after ∧
      invariant after ∧ (¬ stops value → remaining after < remaining world))
    {world : World} (holds : invariant world) :
    ∃ values after, Repeats answers body stops world values after ∧ invariant after := by
  induction size : remaining world using Nat.strongRecOn generalizing world with
  | ind _ ih =>
      obtain ⟨value, after, ended, kept, progress⟩ := round world holds
      by_cases stop : stops value
      · exact ⟨[value], after, .last ended stop, kept⟩
      · obtain ⟨values, final, rest, last⟩ := ih _ (size ▸ progress stop) kept rfl
        exact ⟨value :: values, final, .more ended stop rest, last⟩

end Loops

section Wider

variable {ε : Type} {answers answers' : (request : Call) → World → Answer request → World → Prop}
  {world final : World}

/-- What ends in one world ends in another that can give the same answers. -/
theorem Ends.imp (wider : ∀ {request world answer after}, answers request world answer after →
      answers' request world answer after) {program : Program Call Answer α} {value : α}
    (ended : Ends answers program world value final) : Ends answers' program world value final := by
  induction ended with
  | done => exact .done
  | call answered _ ih => exact .call (wider answered) ih

theorem Repeats.imp (wider : ∀ {request world answer after}, answers request world answer after →
      answers' request world answer after) {body : Program Call Answer (Except ε α)} {stops : α → Prop}
    {values : List α} (repeats : Repeats answers body stops world values final) :
    Repeats answers' body stops world values final := by
  induction repeats with
  | last round stop => exact .last (round.imp wider) stop
  | more round go _ ih => exact .more (round.imp wider) go ih

end Wider

section Total

variable {answers : (request : Call) → World → Answer request → World → Prop} {good : Call → Prop}

/-- A program ends if all the calls it can make are answered. -/
theorem ends_total {program : Program Call Answer α} (makes : program.Makes good)
    (answered : ∀ request world, good request → ∃ answer after, answers request world answer after)
    (world : World) : ∃ value after, Ends answers program world value after := by
  induction program generalizing world with
  | done value => exact ⟨value, world, .done⟩
  | call request resume ih =>
      obtain ⟨answer, middle, first⟩ := answered request world makes.1
      obtain ⟨value, after, rest⟩ := ih answer (makes.2 answer) middle
      exact ⟨value, after, .call first rest⟩

end Total

end ConnectForge.Interaction
