import ConnectForge.Interaction.Tasks

namespace ConnectForge

open Interaction

/-! Bounded retries.  The backoff between two attempts only takes time and is
left out. -/

variable {Call : Type} {Answer : Call → Type} {ε α : Type}

/-- The retry loop, with the number of attempts that are still allowed after
the next one. -/
def retryLoop (op : Program Call Answer (Except ε α)) (isRetryable : ε → Bool) :
    Nat → Program Call Answer (Except ε α)
  | 0 => op
  | remaining + 1 => do
      match ← op with
      | .ok value => return .ok value
      | .error reason =>
          if isRetryable reason then retryLoop op isRetryable remaining
          else return .error reason

/-- Retry an operation while its error is retryable, at most `maxAttempts`
attempts in total and at least one. -/
def retryIf (maxAttempts : Nat) (op : Program Call Answer (Except ε α))
    (isRetryable : ε → Bool) : Program Call Answer (Except ε α) :=
  retryLoop op isRetryable (maxAttempts - 1)

variable {World : Type} {answers : (request : Call) → World → Answer request → World → Prop}
  {rely guarantee : World → World → Prop} {op : Program Call Answer (Except ε α)}
  {isRetryable : ε → Bool}

theorem safe_retryIf {ready : World → Prop} {post : Except ε α → World → Prop}
    (reflexive : ∀ world, rely world world) (maxAttempts : Nat)
    (attempt : ∀ world, ready world → Safe answers rely guarantee
      (fun result world => post result world ∧ ∀ reason, result = .error reason → ready world) op world)
    (stable : ∀ result world moved, post result world → rely world moved → post result moved)
    {world : World} (holds : ready world) :
    Safe answers rely guarantee post (retryIf maxAttempts op isRetryable) world := by
  unfold retryIf
  generalize maxAttempts - 1 = remaining
  induction remaining generalizing world with
  | zero => exact (attempt world holds).weaken fun _ _ both => both.1
  | succ remaining ih =>
      refine Safe.bind reflexive (attempt world holds) ?_
      intro result after both
      cases result with
      | ok value => exact Safe.done fun moved moves => stable _ after moved both.1 moves
      | error reason =>
          dsimp only
          split
          · exact ih (both.2 reason rfl)
          · exact Safe.done fun moved moves => stable _ after moved both.1 moves

theorem follows_retryIf {Memo : Type} {permits : Memo → Call → Prop}
    {note : Memo → (request : Call) → Answer request → Memo} {ready : Memo → Prop}
    {post : Except ε α → Memo → Prop} (maxAttempts : Nat)
    (attempt : ∀ memo, ready memo → op.Follows permits note
      (fun result memo => post result memo ∧ ∀ reason, result = .error reason → ready memo) memo)
    {memo : Memo} (holds : ready memo) :
    (retryIf maxAttempts op isRetryable).Follows permits note
      (fun result memo => post result memo ∧ ∀ reason, result = .error reason → ready memo) memo := by
  unfold retryIf
  generalize maxAttempts - 1 = remaining
  induction remaining generalizing memo with
  | zero => exact attempt memo holds
  | succ remaining ih =>
      refine (attempt memo holds).bind ?_
      intro result memo both
      cases result with
      | ok value => exact both
      | error reason =>
          dsimp only
          split
          · exact ih (both.2 reason rfl)
          · exact both

theorem makes_retryIf {good : Call → Prop} (maxAttempts : Nat) (makes : op.Makes good) :
    (retryIf maxAttempts op isRetryable).Makes good := by
  unfold retryIf
  generalize maxAttempts - 1 = remaining
  induction remaining with
  | zero => exact makes
  | succ remaining ih =>
      refine makes.bind ?_
      intro result
      cases result with
      | ok value => trivial
      | error reason =>
          dsimp only
          split
          · exact ih
          · trivial

/-- The answers to an operation that is retried, in order, with `remaining`
attempts allowed after the first one.  The last answer is the loop's result. -/
inductive Attempts (isRetryable : ε → Bool) : Nat → List (Except ε α) → Except ε α → Prop where
  | last {answer} : Attempts isRetryable 0 [answer] answer
  | ok {remaining value} : Attempts isRetryable (remaining + 1) [.ok value] (.ok value)
  | permanent {remaining reason} (stops : isRetryable reason = false) :
      Attempts isRetryable (remaining + 1) [.error reason] (.error reason)
  | again {remaining reason given answer} (retries : isRetryable reason = true)
      (more : Attempts isRetryable remaining given answer) :
      Attempts isRetryable (remaining + 1) (.error reason :: given) answer

namespace Attempts

variable {remaining : Nat} {given : List (Except ε α)} {answer : Except ε α}

theorem getLast? (attempts : Attempts isRetryable remaining given answer) :
    given.getLast? = some answer := by
  induction attempts with
  | last => rfl
  | ok => rfl
  | permanent _ => rfl
  | again _ _ ih => rw [List.getLast?_cons, ih, Option.getD_some]

theorem nonempty (attempts : Attempts isRetryable remaining given answer) : given ≠ [] := by
  rintro rfl
  cases attempts.getLast?

theorem exhausted {reason : ε} (attempts : Attempts isRetryable remaining given answer)
    (failed : answer = .error reason) :
    given.length = remaining + 1 ↔
      ∀ reason, .error reason ∈ given.take remaining → isRetryable reason = true := by
  induction attempts with
  | last => simp
  | ok => cases failed
  | permanent stops =>
      refine ⟨fun full => ?_, fun all => ?_⟩
      · rw [List.length_singleton] at full
        omega
      · have retries := all _ (.head _)
        exact absurd (stops.symm.trans retries) Bool.false_ne_true
  | again retries _ ih =>
      rw [List.length_cons, List.take_succ_cons, Nat.add_right_cancel_iff, ih failed]
      refine ⟨fun all reason member => ?_, fun all reason member => ?_⟩
      · rcases List.mem_cons.mp member with same | later
        · cases same
          exact retries
        · exact all reason later
      · exact all reason (List.mem_cons_of_mem _ member)

end Attempts

/-- A retried operation runs once for every answer. -/
theorem ends_retryIf (passes : World → List (Except ε α) → World → Prop)
    (one : ∀ {before answer after}, Ends answers op before answer after →
      passes before [answer] after)
    (more : ∀ {first second third answer given}, passes first [answer] second →
      passes second given third → passes first (answer :: given) third)
    {maxAttempts : Nat} {world final : World} {result : Except ε α}
    (ended : Ends answers (retryIf maxAttempts op isRetryable) world result final) :
    ∃ given, Attempts isRetryable (maxAttempts - 1) given result ∧ passes world given final := by
  unfold retryIf at ended
  generalize maxAttempts - 1 = remaining at ended ⊢
  induction remaining generalizing world with
  | zero => exact ⟨[result], .last, one ended⟩
  | succ remaining ih =>
      obtain ⟨answer, after, first, rest⟩ := ends_bind ended
      cases answer with
      | ok value =>
          obtain ⟨rfl, rfl⟩ := ends_done rest
          exact ⟨[.ok value], .ok, one first⟩
      | error reason =>
          dsimp only at rest
          split at rest
          next retries =>
            obtain ⟨given, attempts, passed⟩ := ih rest
            exact ⟨.error reason :: given, .again retries attempts, more (one first) passed⟩
          next stops =>
            obtain ⟨rfl, rfl⟩ := ends_done rest
            exact ⟨[.error reason], .permanent (Bool.eq_false_iff.mpr stops), one first⟩

/-- An operation whose errors are all permanent is tried once. -/
theorem ends_retryIf_once (permanent : ∀ {reason after}, Ends answers op world (.error reason) after →
      isRetryable reason = false) {maxAttempts : Nat} {final : World} {result : Except ε α}
    (ended : Ends answers (retryIf maxAttempts op isRetryable) world result final) :
    Ends answers op world result final := by
  unfold retryIf at ended
  generalize maxAttempts - 1 = remaining at ended
  cases remaining with
  | zero => exact ended
  | succ remaining =>
      obtain ⟨answer, after, first, rest⟩ := ends_bind ended
      cases answer with
      | ok value =>
          obtain ⟨rfl, rfl⟩ := ends_done rest
          exact first
      | error reason =>
          dsimp only at rest
          rw [permanent first] at rest
          obtain ⟨rfl, rfl⟩ := ends_done rest
          exact first

end ConnectForge
