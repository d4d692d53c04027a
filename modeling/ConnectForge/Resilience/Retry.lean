import Mathlib.Order.Bounds.Basic
import ConnectForge.Core.Sink
import ConnectForge.Resilience.Backoff

namespace ConnectForge.Resilience

open Interaction

/-! The retry loop as it is written, with the waits between its attempts. -/

section Loop

variable {Call : Type} {Answer : Call → Type} {ε α : Type}

/-- The loop of `retry_if`, with its counter.  The counter stays below the number
of attempts, so it does not leave `u32`; a delay that cannot be computed is a
panic, with no result. -/
def retryFrom (policy : RetryPolicy) (op : Program Call Answer (Except ε α))
    (now : Program Call Answer (Option Duration)) (sleep : Duration → Program Call Answer Unit)
    (isRetryable : ε → Bool) (attempt : Nat) : Program Call Answer (Option (Except ε α)) := do
  match ← op with
  | .ok value => return some (.ok value)
  | .error reason =>
      if _ : policy.maxAttempts ≤ attempt + 1 ∨ isRetryable reason = false then
        return some (.error reason)
      else
        match policy.backoff (attempt + 1 - 1) (← now) with
        | none => return none
        | some delay =>
            sleep delay
            retryFrom policy op now sleep isRetryable (attempt + 1)
termination_by policy.maxAttempts - attempt
decreasing_by omega

variable {policy : RetryPolicy} {op : Program Call Answer (Except ε α)} {isRetryable : ε → Bool}

/-- Where every delay can be computed and no time passes, the loop makes the
calls of the one that counts the attempts it has left. -/
theorem retryFrom_untimed (computes : ∀ attempt, policy.Computes attempt) (now : Option Duration)
    (attempt : Nat) :
    retryFrom policy op (.done now) (fun _ => .done ()) isRetryable attempt =
      retryLoop op isRetryable (policy.maxAttempts - 1 - attempt) >>= fun result => .done (some result) := by
  generalize left : policy.maxAttempts - 1 - attempt = remaining
  induction remaining generalizing attempt with
  | zero =>
      rw [retryFrom, retryLoop]
      congr 1
      funext result
      cases result with
      | ok value => rfl
      | error reason =>
          have last : policy.maxAttempts ≤ attempt + 1 := by omega
          simp [last]
  | succ remaining ih =>
      have more : ¬ policy.maxAttempts ≤ attempt + 1 := by omega
      rw [retryFrom, retryLoop, Program.bind_assoc]
      congr 1
      funext result
      cases result with
      | ok value => rfl
      | error reason =>
          cases retries : isRetryable reason with
          | false => simp [retries]
          | true =>
              obtain ⟨delay, found⟩ := Option.ne_none_iff_exists'.mp
                (mt (RetryPolicy.backoff_none attempt now).mp (not_not_intro (computes attempt)))
              simp only [retries, more, Bool.true_eq_false, or_self, ↓reduceDIte, Program.done_bind,
                Nat.add_sub_cancel, found, ↓reduceIte]
              exact ih (attempt + 1) (by omega)

end Loop

/-! The loop over an operation with an answer for each time it is called. -/

inductive RetryCall where
  | operation
  | now
  | sleep (delay : Duration)

@[reducible] def RetryCall.Answer (ε α : Type) : RetryCall → Type
  | operation => Except ε α
  | now => Option Duration
  | sleep _ => Unit

structure RetryWorld where
  calls : Nat
  readings : Nat
  slept : List Duration

variable {ε α : Type}

def RetryWorld.handle (answers : Nat → Except ε α) (clock : Nat → Option Duration) :
    (request : RetryCall) → RetryWorld → request.Answer ε α × RetryWorld
  | .operation, world => (answers world.calls, { world with calls := world.calls + 1 })
  | .now, world => (clock world.readings, { world with readings := world.readings + 1 })
  | .sleep delay, world => ((), { world with slept := world.slept ++ [delay] })

def retryIf (policy : RetryPolicy) (isRetryable : ε → Bool) :
    Program RetryCall (RetryCall.Answer ε α) (Option (Except ε α)) :=
  retryFrom policy (Program.ask RetryCall.operation) (Program.ask RetryCall.now)
    (fun delay => Program.ask (RetryCall.sleep delay)) isRetryable 0

/-- The answer after which the loop has to stop, counted from one. -/
def Stops (maxAttempts : Nat) (isRetryable : ε → Bool) (answers : Nat → Except ε α) (count : Nat) : Prop :=
  1 ≤ count ∧ ((∃ value, answers (count - 1) = .ok value) ∨
    (∃ reason, answers (count - 1) = .error reason ∧ isRetryable reason = false) ∨
    count = max 1 maxAttempts)

/-- The operation is called until the first answer that stops the loop, and that
answer is returned. -/
def RetriesExactly (policy : RetryPolicy) (isRetryable : ε → Bool) (answers : Nat → Except ε α)
    (clock : Nat → Option Duration) : Prop :=
  ∃ count, IsLeast {count | Stops policy.maxAttempts isRetryable answers count} count ∧
    ((retryIf policy isRetryable).run (RetryWorld.handle answers clock) ⟨0, 0, []⟩).1 =
      some (answers (count - 1)) ∧
    ((retryIf policy isRetryable).run (RetryWorld.handle answers clock) ⟨0, 0, []⟩).2.calls = count

/-- The loop waits after this attempt, counted from zero. -/
def Waits (policy : RetryPolicy) (isRetryable : ε → Bool) (answers : Nat → Except ε α) (attempt : Nat) :
    Prop :=
  attempt + 1 < policy.maxAttempts ∧
    ∀ earlier ≤ attempt, ∃ reason, answers earlier = .error reason ∧ isRetryable reason = true

variable {policy : RetryPolicy} {isRetryable : ε → Bool} {answers : Nat → Except ε α}
  {clock : Nat → Option Duration}

/-- How the loop comes out: with the answer it had to stop at, all its delays
computed, or with a delay it could not compute. -/
inductive Outcome (policy : RetryPolicy) (isRetryable : ε → Bool) (answers : Nat → Except ε α) :
    Option (Except ε α) × RetryWorld → Prop where
  | returned (world : RetryWorld)
      (least : IsLeast {count | Stops policy.maxAttempts isRetryable answers count} world.calls)
      (computed : ∀ attempt, Waits policy isRetryable answers attempt → policy.Computes attempt) :
      Outcome policy isRetryable answers (some (answers (world.calls - 1)), world)
  | panicked {attempt world} (waits : Waits policy isRetryable answers attempt)
      (fails : ¬ policy.Computes attempt) : Outcome policy isRetryable answers (none, world)

/-- An answer that is the first to stop the loop. -/
theorem least_stop {attempt : Nat}
    (before : ∀ earlier < attempt, Waits policy isRetryable answers earlier ∧ policy.Computes earlier)
    (stops : Stops policy.maxAttempts isRetryable answers (attempt + 1)) :
    IsLeast {count | Stops policy.maxAttempts isRetryable answers count} (attempt + 1) := by
  refine ⟨stops, ?_⟩
  rintro count ⟨positive, stopped⟩
  by_contra less
  obtain ⟨⟨more, failed⟩, _⟩ := before (count - 1) (by omega)
  obtain ⟨reason, error, retries⟩ := failed (count - 1) (Nat.le_refl _)
  rcases stopped with ⟨value, ok⟩ | ⟨other, permanent, refuses⟩ | all
  · rw [ok] at error
    cases error
  · rw [permanent] at error
    cases error
    rw [retries] at refuses
    cases refuses
  · omega

/-- Nobody waits behind the answer that stops the loop. -/
theorem waits_before {attempt later : Nat} (stops : Stops policy.maxAttempts isRetryable answers (attempt + 1))
    (waits : Waits policy isRetryable answers later) : later < attempt := by
  by_contra beyond
  obtain ⟨more, failed⟩ := waits
  obtain ⟨reason, error, retries⟩ := failed attempt (Nat.le_of_not_lt beyond)
  rcases stops with ⟨_, ⟨value, ok⟩ | ⟨other, permanent, refuses⟩ | all⟩
  · rw [Nat.add_sub_cancel, error] at ok
    cases ok
  · rw [Nat.add_sub_cancel, error] at permanent
    cases permanent
    rw [retries] at refuses
    cases refuses
  · omega

theorem retryFrom_outcome {attempt : Nat} (inside : attempt < max 1 policy.maxAttempts)
    (before : ∀ earlier < attempt, Waits policy isRetryable answers earlier ∧ policy.Computes earlier)
    {world : RetryWorld} (called : world.calls = attempt) :
    Outcome policy isRetryable answers
      ((retryFrom policy (Program.ask RetryCall.operation) (Program.ask RetryCall.now)
        (fun delay => Program.ask (RetryCall.sleep delay)) isRetryable attempt).run
        (RetryWorld.handle answers clock) world) := by
  generalize left : policy.maxAttempts - attempt = remaining
  induction remaining using Nat.strongRecOn generalizing attempt world with
  | _ remaining ih =>
    subst called
    have returns : Stops policy.maxAttempts isRetryable answers (world.calls + 1) →
        Outcome policy isRetryable answers
          (some (answers world.calls), { world with calls := world.calls + 1 }) :=
      fun stops => .returned { world with calls := world.calls + 1 } (least_stop before stops)
        fun later waits => (before later (waits_before stops waits)).2
    rw [retryFrom]
    simp only [Program.ask_bind, run_call, RetryWorld.handle]
    cases answer : answers world.calls with
    | ok value =>
        rw [answer] at returns
        exact returns ⟨by omega, .inl ⟨value, answer⟩⟩
    | error reason =>
        rw [answer] at returns
        by_cases last : policy.maxAttempts ≤ world.calls + 1
        · simp only [last, true_or, ↓reduceDIte]
          exact returns ⟨by omega, .inr (.inr (by omega))⟩
        · cases retries : isRetryable reason with
          | false =>
              simp only [retries, or_true, ↓reduceDIte]
              exact returns ⟨by omega, .inr (.inl ⟨reason, answer, retries⟩)⟩
          | true =>
              have waits : Waits policy isRetryable answers world.calls := by
                refine ⟨Nat.lt_of_not_le last, fun earlier up => ?_⟩
                rcases Nat.lt_or_eq_of_le up with less | rfl
                · exact (before earlier less).1.2 earlier (Nat.le_refl _)
                · exact ⟨reason, answer, retries⟩
              simp only [last, retries, Bool.true_eq_false, or_self, ↓reduceDIte, run_call,
                RetryWorld.handle, Nat.add_sub_cancel]
              by_cases computes : policy.Computes world.calls
              · obtain ⟨delay, found⟩ := Option.ne_none_iff_exists'.mp
                  (mt (RetryPolicy.backoff_none world.calls (clock world.readings)).mp
                    (not_not_intro computes))
                simp only [found, run_call, RetryWorld.handle]
                refine ih (policy.maxAttempts - (world.calls + 1)) (by omega) (by omega) ?_ rfl rfl
                intro earlier less
                rcases Nat.lt_or_eq_of_le (Nat.le_of_lt_succ less) with less | rfl
                · exact before earlier less
                · exact ⟨waits, computes⟩
              · simp only [(RetryPolicy.backoff_none world.calls (clock world.readings)).mpr computes]
                exact .panicked waits computes

theorem retryIf_outcome (policy : RetryPolicy) (isRetryable : ε → Bool) (answers : Nat → Except ε α)
    (clock : Nat → Option Duration) :
    Outcome policy isRetryable answers
      ((retryIf policy isRetryable).run (RetryWorld.handle answers clock) ⟨0, 0, []⟩) :=
  retryFrom_outcome (by omega) (by omega) rfl

theorem Outcome.exact_iff {result : Option (Except ε α) × RetryWorld}
    (outcome : Outcome policy isRetryable answers result) :
    (∃ count, IsLeast {count | Stops policy.maxAttempts isRetryable answers count} count ∧
      result.1 = some (answers (count - 1)) ∧ result.2.calls = count) ↔
      ∀ attempt, Waits policy isRetryable answers attempt → policy.Computes attempt := by
  cases outcome with
  | returned world least computed => exact ⟨fun _ => computed, fun _ => ⟨_, least, rfl, rfl⟩⟩
  | panicked waits fails =>
      refine ⟨?_, fun computed => absurd (computed _ waits) fails⟩
      rintro ⟨count, _, returned, _⟩
      cases returned

section Deliver

variable {Call : Type} {Answer : Call → Type}

/-- The policy of `deliver_one`. -/
def deliveryPolicy (config : SinkConfig) (baseBackoff : Duration) : RetryPolicy where
  maxAttempts := Nat.max config.maxAttempts 1
  baseDelay := baseBackoff
  maxDelay := .fromSecs 1

/-- `deliver_one` with the waits between its attempts. -/
def deliverOne (config : SinkConfig) (baseBackoff : Duration)
    (deliver : Program Call Answer (Except PortError Unit)) (now : Program Call Answer (Option Duration))
    (sleep : Duration → Program Call Answer Unit) : Program Call Answer (Option (Except String Unit)) := do
  match ← retryFrom (deliveryPolicy config baseBackoff) deliver now sleep PortError.isRetryable 0 with
  | none => return none
  | some (.ok ()) => return some (.ok ())
  | some (.error reason) => return some (.error reason.toText)

/-- No delay of up to a second is a panic. -/
theorem deliveryPolicy_computes (config : SinkConfig) (baseBackoff : Duration) (attempt : Nat) :
    (deliveryPolicy config baseBackoff).Computes attempt := by
  have below : (deliveryPolicy config baseBackoff).cap attempt ≤ (Duration.fromSecs 1).nanos :=
    Nat.min_le_right _ _
  have short : (Duration.fromSecs 1).nanos + 2 < 2 * u64Modulus := by decide
  exact RetryPolicy.computes_of_lt (by omega)

/-- Without the waits it is what the sink runtime does. -/
theorem deliverOne_untimed (runtime : SinkRuntime) (record : Record) (baseBackoff : Duration)
    (now : Option Duration) :
    deliverOne runtime.config baseBackoff (deliverRecords [record]) (.done now) (fun _ => .done ()) =
      runtime.deliverOne record >>= fun result => .done (some result) := by
  unfold deliverOne SinkRuntime.deliverOne ConnectForge.retryIf
  rw [retryFrom_untimed (deliveryPolicy_computes _ _), Program.bind_assoc, Program.bind_assoc]
  congr 1
  funext result
  rcases result with reason | ⟨⟩ <;> rfl

end Deliver

/-- A record is delivered until the first answer that stops the attempts, and the
outcome is that answer, with the text of its error. -/
def DeliversExactly (config : SinkConfig) (baseBackoff : Duration) (answers : Nat → Except PortError Unit)
    (clock : Nat → Option Duration) : Prop :=
  let deliver : Program RetryCall (RetryCall.Answer PortError Unit) (Option (Except String Unit)) :=
    deliverOne config baseBackoff (Program.ask RetryCall.operation) (Program.ask RetryCall.now)
      fun delay => Program.ask (RetryCall.sleep delay)
  ∃ count, IsLeast {count | Stops (max config.maxAttempts 1) PortError.isRetryable answers count} count ∧
    (deliver.run (RetryWorld.handle answers clock) ⟨0, 0, []⟩).1 =
      some ((answers (count - 1)).mapError PortError.toText) ∧
    (deliver.run (RetryWorld.handle answers clock) ⟨0, 0, []⟩).2.calls = count

/-- The loop stops exactly where it should if and only if every delay it waits
for can be computed; deliveries, which wait a second at most, always do. -/
theorem retry_exact (policy : RetryPolicy) (isRetryable : ε → Bool) (answers : Nat → Except ε α)
    (clock : Nat → Option Duration) :
    (RetriesExactly policy isRetryable answers clock ↔
      ∀ attempt, Waits policy isRetryable answers attempt → policy.Computes attempt) ∧
    ∀ (config : SinkConfig) (baseBackoff : Duration) (answers : Nat → Except PortError Unit),
      DeliversExactly config baseBackoff answers clock := by
  refine ⟨(retryIf_outcome policy isRetryable answers clock).exact_iff, ?_⟩
  intro config baseBackoff answers
  obtain ⟨count, least, returned, calls⟩ := (retryIf_outcome (deliveryPolicy config baseBackoff)
    PortError.isRetryable answers clock).exact_iff.mpr
      fun attempt _ => deliveryPolicy_computes config baseBackoff attempt
  refine ⟨count, least, ?_⟩
  unfold retryIf at returned calls
  unfold deliverOne
  rw [run_bind, returned]
  rcases answers (count - 1) with reason | ⟨⟩ <;> exact ⟨rfl, calls⟩

/-- One retryable failure under a policy whose delays are `2 ^ 65 - 2`
nanoseconds: the loop panics where it should call the operation again. -/
theorem retry_panics :
    ¬ RetriesExactly { maxAttempts := 2, baseDelay := ⟨2 ^ 65 - 2, by decide⟩, maxDelay := ⟨2 ^ 65 - 2, by decide⟩ }
      PortError.isRetryable (fun _ => (.error (.transient "flap") : Except PortError Unit))
      (fun _ => some .zero) := by
  intro meets
  have computes := (retryIf_outcome _ _ _ _).exact_iff.mp meets 0
    ⟨by decide, fun _ _ => ⟨_, rfl, rfl⟩⟩
  exact absurd computes (by decide)

end ConnectForge.Resilience
