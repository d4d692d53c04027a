import Mathlib.Data.List.DropRight
import ConnectForge.Types.Units

namespace ConnectForge.Resilience

/-! The circuit breaker.  Its lock is held for the whole of a call, so calls
happen one after the other; clock readings are in nanoseconds. -/

inductive BreakerState where
  | closed
  | «open»
  | halfOpen
deriving DecidableEq

/-- Returned when the breaker is open and rejects a call fast. -/
inductive RejectedByBreaker where
  | rejected
deriving DecidableEq

structure CircuitBreaker where
  failureThreshold : Nat
  cooldown : Nat
  state : BreakerState
  consecutiveFailures : Nat
  openedAt : Nat
deriving DecidableEq

namespace CircuitBreaker

def withClock (failureThreshold cooldown : Nat) : CircuitBreaker where
  failureThreshold := max failureThreshold 1
  cooldown
  state := .closed
  consecutiveFailures := 0
  openedAt := 0

/-- The source's `state`, which moves an open breaker on once the cooldown has
elapsed. -/
def readState (breaker : CircuitBreaker) (now : Nat) : BreakerState × CircuitBreaker :=
  if breaker.state = .open ∧ breaker.cooldown ≤ now - breaker.openedAt then
    (.halfOpen, { breaker with state := .halfOpen })
  else (breaker.state, breaker)

def acquire (breaker : CircuitBreaker) (now : Nat) : Except RejectedByBreaker Unit × CircuitBreaker :=
  match breaker.readState now with
  | (.open, breaker) => (.error .rejected, breaker)
  | (.closed, breaker) => (.ok (), breaker)
  | (.halfOpen, breaker) => (.ok (), breaker)

def onSuccess (breaker : CircuitBreaker) : CircuitBreaker :=
  { breaker with consecutiveFailures := 0, state := .closed }

/-- The count of failures is a `u32`. -/
def onFailure (breaker : CircuitBreaker) (now : Nat) : CircuitBreaker :=
  let consecutiveFailures := (breaker.consecutiveFailures + 1) % u32Modulus
  if breaker.failureThreshold ≤ consecutiveFailures ∨ breaker.state = .halfOpen then
    { breaker with consecutiveFailures, state := .open, openedAt := now }
  else { breaker with consecutiveFailures }

end CircuitBreaker

inductive BreakerCall where
  | state
  | acquire
  | onSuccess
  | onFailure
deriving DecidableEq

/-- A call with the reading of the clock at that moment. -/
structure Timed where
  call : BreakerCall
  time : Nat
deriving DecidableEq

namespace CircuitBreaker

def step (breaker : CircuitBreaker) (timed : Timed) : CircuitBreaker :=
  match timed.call with
  | .state => (breaker.readState timed.time).2
  | .acquire => (breaker.acquire timed.time).2
  | .onSuccess => breaker.onSuccess
  | .onFailure => breaker.onFailure timed.time

def run (breaker : CircuitBreaker) (history : List Timed) : CircuitBreaker := history.foldl step breaker

@[simp] theorem run_nil (breaker : CircuitBreaker) : breaker.run [] = breaker := rfl

@[simp] theorem run_concat (breaker : CircuitBreaker) (history : List Timed) (timed : Timed) :
    breaker.run (history ++ [timed]) = (breaker.run history).step timed := by
  simp only [run, List.foldl_append, List.foldl_cons, List.foldl_nil]

theorem acquire_state (breaker : CircuitBreaker) (now : Nat) :
    (breaker.acquire now).2 = (breaker.readState now).2 := by
  unfold acquire
  generalize breaker.readState now = outcome
  obtain ⟨state, after⟩ := outcome
  cases state <;> rfl

theorem acquire_error (breaker : CircuitBreaker) (now : Nat) :
    (breaker.acquire now).1 = .error .rejected ↔
      breaker.state = .open ∧ now - breaker.openedAt < breaker.cooldown := by
  unfold acquire readState
  by_cases elapsed : breaker.state = .open ∧ breaker.cooldown ≤ now - breaker.openedAt
  · rw [if_pos elapsed]
    constructor
    · intro impossible
      cases impossible
    · intro early
      omega
  · rw [if_neg elapsed]
    cases state : breaker.state with
    | «open» =>
        rw [state] at elapsed
        simp only [true_and, Nat.not_le] at elapsed
        simp [elapsed]
    | closed => simp
    | halfOpen => simp

theorem readState_state (breaker : CircuitBreaker) (now : Nat) :
    (breaker.readState now).1 = (breaker.readState now).2.state := by
  unfold readState
  split <;> rfl

theorem readState_cases (breaker : CircuitBreaker) (now : Nat) :
    (breaker.readState now).2 = breaker ∨
      breaker.state = .open ∧ breaker.cooldown ≤ now - breaker.openedAt ∧
        (breaker.readState now).2 = { breaker with state := .halfOpen } := by
  unfold readState
  by_cases elapsed : breaker.state = .open ∧ breaker.cooldown ≤ now - breaker.openedAt
  · rw [if_pos elapsed]
    exact .inr ⟨elapsed.1, elapsed.2, rfl⟩
  · rw [if_neg elapsed]
    exact .inl rfl

end CircuitBreaker

/-! The history of a breaker. -/

def failures (history : List Timed) : Nat :=
  (history.rtakeWhile fun timed => timed.call ≠ .onSuccess).countP fun timed => timed.call = .onFailure

def lastFailure (history : List Timed) : Option Nat :=
  ((history.filter fun timed => timed.call = .onFailure).getLast?).map Timed.time

section History

variable (history : List Timed) (timed : Timed)

@[simp] theorem failures_nil : failures [] = 0 := rfl

theorem failures_concat : failures (history ++ [timed]) =
    match timed.call with
    | .onSuccess => 0
    | .onFailure => failures history + 1
    | _ => failures history := by
  unfold failures
  rw [List.rtakeWhile_concat]
  cases call : timed.call <;> simp [call]

theorem lastFailure_concat : lastFailure (history ++ [timed]) =
    match timed.call with
    | .onFailure => some timed.time
    | _ => lastFailure history := by
  unfold lastFailure
  rw [List.filter_append]
  cases call : timed.call <;> simp [call]

end History

/-- Fewer failures between two successes than the count can hold. -/
def Countable (history : List Timed) : Prop := ∀ earlier, earlier <+: history → failures earlier < u32Modulus

theorem Countable.earlier {history : List Timed} {timed : Timed}
    (countable : Countable (history ++ [timed])) : Countable history :=
  fun earlier before => countable earlier (before.trans (List.prefix_append _ _))

theorem countable_of_length {history : List Timed} (short : history.length < u32Modulus) :
    Countable history := by
  intro earlier before
  have counted : failures earlier ≤ earlier.length :=
    List.countP_le_length.trans (List.rtakeWhile_suffix _ earlier).length_le
  exact Nat.lt_of_le_of_lt (counted.trans before.length_le) short

/-- A breaker as a function of the calls made so far: it is closed until enough
of them failed, and half-open once some call came late enough. -/
structure Reflects (failureThreshold cooldown : Nat) (history : List Timed) (breaker : CircuitBreaker) :
    Prop where
  threshold : breaker.failureThreshold = max failureThreshold 1
  waits : breaker.cooldown = cooldown
  counted : breaker.consecutiveFailures = failures history
  closed : breaker.state = .closed ↔ failures history < max failureThreshold 1
  opened : breaker.state ≠ .closed → lastFailure history = some breaker.openedAt
  cooled : breaker.state = .halfOpen →
    ∃ timed ∈ history, cooldown ≤ timed.time - breaker.openedAt

variable {failureThreshold cooldown : Nat} {history : List Timed} {breaker : CircuitBreaker} {timed : Timed}

section Steps

variable (reflects : Reflects failureThreshold cooldown history breaker)

include reflects

theorem Reflects.read (sameFailures : failures (history ++ [timed]) = failures history)
    (sameLast : lastFailure (history ++ [timed]) = lastFailure history) :
    Reflects failureThreshold cooldown (history ++ [timed]) (breaker.readState timed.time).2 := by
  rcases breaker.readState_cases timed.time with same | ⟨isOpen, elapsed, moved⟩
  · rw [same]
    refine ⟨reflects.threshold, reflects.waits, ?_, ?_, ?_, ?_⟩
    · rw [sameFailures, reflects.counted]
    · rw [sameFailures, reflects.closed]
    · rw [sameLast]
      exact reflects.opened
    · intro halfOpen
      obtain ⟨late, member, elapsed⟩ := reflects.cooled halfOpen
      exact ⟨late, List.mem_append_left _ member, elapsed⟩
  · have notClosed : breaker.state ≠ .closed := by
      rw [isOpen]
      exact BreakerState.noConfusion
    rw [moved]
    refine ⟨reflects.threshold, reflects.waits, ?_, ?_, ?_, ?_⟩
    · rw [sameFailures]
      exact reflects.counted
    · rw [sameFailures, ← reflects.closed]
      simp [notClosed]
    · intro _
      rw [sameLast]
      exact reflects.opened notClosed
    · intro _
      rw [reflects.waits] at elapsed
      exact ⟨timed, List.mem_append_right _ List.mem_cons_self, elapsed⟩

theorem Reflects.success (call : timed.call = .onSuccess) :
    Reflects failureThreshold cooldown (history ++ [timed]) breaker.onSuccess := by
  have none : failures (history ++ [timed]) = 0 := by rw [failures_concat, call]
  refine ⟨reflects.threshold, reflects.waits, none.symm, ?_, ?_, ?_⟩
  · rw [none]
    exact iff_of_true rfl (by omega)
  · intro notClosed
    exact absurd rfl notClosed
  · intro impossible
    cases impossible

theorem Reflects.failure (call : timed.call = .onFailure)
    (countable : failures (history ++ [timed]) < u32Modulus) :
    Reflects failureThreshold cooldown (history ++ [timed]) (breaker.onFailure timed.time) := by
  have more : failures (history ++ [timed]) = failures history + 1 := by rw [failures_concat, call]
  have last : lastFailure (history ++ [timed]) = some timed.time := by rw [lastFailure_concat, call]
  have count : (breaker.consecutiveFailures + 1) % u32Modulus = failures (history ++ [timed]) := by
    rw [reflects.counted, ← more, Nat.mod_eq_of_lt countable]
  unfold CircuitBreaker.onFailure
  simp only [count, reflects.threshold]
  by_cases trips : max failureThreshold 1 ≤ failures (history ++ [timed]) ∨ breaker.state = .halfOpen
  · rw [if_pos trips]
    refine ⟨rfl, reflects.waits, rfl, ?_, fun _ => last, ?_⟩
    · refine iff_of_false BreakerState.noConfusion ?_
      rcases trips with enough | halfOpen
      · omega
      · have notClosed : ¬ failures history < max failureThreshold 1 := by
          rw [← reflects.closed, halfOpen]
          exact BreakerState.noConfusion
        omega
    · intro impossible
      cases impossible
  · rw [if_neg trips]
    rw [not_or] at trips
    have isClosed : breaker.state = .closed := reflects.closed.mpr (by omega)
    refine ⟨rfl, reflects.waits, rfl, ?_, ?_, ?_⟩
    · exact iff_of_true isClosed (by omega)
    · intro notClosed
      exact absurd isClosed notClosed
    · intro halfOpen
      rw [show breaker.state = .halfOpen from halfOpen] at isClosed
      cases isClosed

end Steps

theorem reflects_run (failureThreshold cooldown : Nat) (history : List Timed)
    (countable : Countable history) :
    Reflects failureThreshold cooldown history
      ((CircuitBreaker.withClock failureThreshold cooldown).run history) := by
  induction history using List.reverseRecOn with
  | nil =>
      refine ⟨rfl, rfl, rfl, iff_of_true rfl ?_, fun notClosed => absurd rfl notClosed, ?_⟩
      · rw [failures_nil]
        omega
      · intro impossible
        cases impossible
  | append_singleton earlier timed ih =>
      have reflects := ih countable.earlier
      rw [CircuitBreaker.run_concat]
      unfold CircuitBreaker.step
      cases call : timed.call with
      | state =>
          exact reflects.read (by rw [failures_concat, call]) (by rw [lastFailure_concat, call])
      | acquire =>
          dsimp only
          rw [CircuitBreaker.acquire_state]
          exact reflects.read (by rw [failures_concat, call]) (by rw [lastFailure_concat, call])
      | onSuccess => exact reflects.success call
      | onFailure => exact reflects.failure call (countable _ List.prefix_rfl)

/-- A call is rejected exactly when enough calls failed since the last success,
and the last of these not long enough ago. -/
theorem breaker_exact (failureThreshold cooldown : Nat) (history : List Timed) (now : Nat)
    (ordered : (history.map Timed.time ++ [now]).Pairwise (· ≤ ·)) (countable : Countable history) :
    (((CircuitBreaker.withClock failureThreshold cooldown).run history).acquire now).1 =
        .error .rejected ↔
      max failureThreshold 1 ≤ failures history ∧
        ∃ last, lastFailure history = some last ∧ now - last < cooldown := by
  have reflects := reflects_run failureThreshold cooldown history countable
  rw [CircuitBreaker.acquire_error, reflects.waits]
  constructor
  · rintro ⟨isOpen, early⟩
    have notClosed : ((CircuitBreaker.withClock failureThreshold cooldown).run history).state ≠ .closed := by
      rw [isOpen]
      exact BreakerState.noConfusion
    refine ⟨?_, _, reflects.opened notClosed, early⟩
    rw [Ne, reflects.closed] at notClosed
    omega
  · rintro ⟨enough, last, failed, early⟩
    have notClosed : ((CircuitBreaker.withClock failureThreshold cooldown).run history).state ≠ .closed := by
      rw [Ne, reflects.closed]
      omega
    have same := reflects.opened notClosed
    rw [failed] at same
    cases same
    refine ⟨?_, early⟩
    cases state : ((CircuitBreaker.withClock failureThreshold cooldown).run history).state with
    | closed => exact absurd state notClosed
    | «open» => rfl
    | halfOpen =>
        -- A read before this one came after the cooldown, so this one does too.
        obtain ⟨timed, member, elapsed⟩ := reflects.cooled state
        have before : timed.time ≤ now :=
          (List.pairwise_append.mp ordered).2.2 _ (List.mem_map_of_mem member) now List.mem_cons_self
        omega

theorem breaker_exact_reopened :
    (((CircuitBreaker.withClock 2 10).run
      [⟨.onFailure, 0⟩, ⟨.onFailure, 5⟩, ⟨.state, 15⟩, ⟨.onFailure, 16⟩]).acquire 20).1 =
        .error .rejected :=
  (breaker_exact 2 10 _ 20 (by decide) (countable_of_length (by decide))).mpr
    ⟨by decide, 16, by decide, by decide⟩

/-! Probes of a half-open breaker. -/

def BreakerCall.reads : BreakerCall → Bool
  | .state => true
  | .acquire => true
  | _ => false

def acquires (calls : List Timed) : Nat := calls.countP fun timed => timed.call = .acquire

def CircuitBreaker.admitted (breaker : CircuitBreaker) : List Timed → Nat
  | [] => 0
  | timed :: rest =>
      (if timed.call = .acquire ∧ (breaker.acquire timed.time).1 = .ok () then 1 else 0) +
        (breaker.step timed).admitted rest

/-- Between the read that makes the breaker half-open and the next outcome, at
most one call is let through. -/
def AdmitsOne (breaker : CircuitBreaker) (calls : List Timed) : Prop :=
  ∀ before first window rest, calls = before ++ first :: window ++ rest →
    (∀ timed ∈ first :: window, timed.call.reads) →
    (breaker.run before).state = .open → ((breaker.run before).step first).state = .halfOpen →
    (breaker.run before).admitted (first :: window) ≤ 1

/-- From the first read after the cooldown to the next outcome, at most one call
asks. -/
def AsksOnce (failureThreshold cooldown : Nat) (calls : List Timed) : Prop :=
  ∀ before first window rest, calls = before ++ first :: window ++ rest →
    (∀ timed ∈ first :: window, timed.call.reads) →
    ∀ last, max failureThreshold 1 ≤ failures before → lastFailure before = some last →
      cooldown ≤ first.time - last → acquires (first :: window) ≤ 1

namespace CircuitBreaker

theorem step_read {breaker : CircuitBreaker} {timed : Timed} (reads : timed.call.reads) :
    breaker.step timed = (breaker.readState timed.time).2 := by
  unfold step
  cases call : timed.call with
  | state => rfl
  | acquire => exact acquire_state breaker timed.time
  | onSuccess =>
      rw [call] at reads
      cases reads
  | onFailure =>
      rw [call] at reads
      cases reads

theorem onFailure_state (breaker : CircuitBreaker) (now : Nat) :
    (breaker.onFailure now).state ≠ .halfOpen := by
  unfold onFailure
  dsimp only
  split
  · exact BreakerState.noConfusion
  · rename_i stays
    exact (not_or.mp stays).2

theorem admitted_le (breaker : CircuitBreaker) (calls : List Timed) :
    breaker.admitted calls ≤ acquires calls := by
  induction calls generalizing breaker with
  | nil => exact Nat.le_refl 0
  | cons timed rest ih =>
      have later := ih (breaker.step timed)
      simp only [admitted, acquires, List.countP_cons] at later ⊢
      by_cases asks : timed.call = .acquire
      · simp only [asks, true_and, decide_true, ↓reduceIte]
        split <;> omega
      · simp only [asks, false_and, decide_false, ↓reduceIte, Bool.false_eq_true]
        omega

/-- While it is half-open, every call is let through. -/
theorem admitted_halfOpen {breaker : CircuitBreaker} (halfOpen : breaker.state = .halfOpen)
    {calls : List Timed} (reads : ∀ timed ∈ calls, timed.call.reads) :
    breaker.admitted calls = acquires calls := by
  have still : ∀ now, breaker.readState now = (.halfOpen, breaker) := by
    intro now
    simp [readState, halfOpen]
  induction calls with
  | nil => rfl
  | cons timed rest ih =>
      have same : breaker.step timed = breaker := by
        rw [step_read (reads timed List.mem_cons_self), still]
      have through : (breaker.acquire timed.time).1 = .ok () := by
        simp only [acquire, still]
      have later := ih fun other member => reads other (List.mem_cons_of_mem _ member)
      simp only [admitted, acquires, List.countP_cons, through, and_true, same] at later ⊢
      rw [later, Nat.add_comm]
      simp only [decide_eq_true_eq]

theorem admitted_moved {breaker : CircuitBreaker} {first : Timed} {window : List Timed}
    (moves : (breaker.step first).state = .halfOpen)
    (reads : ∀ timed ∈ first :: window, timed.call.reads) :
    breaker.admitted (first :: window) = acquires (first :: window) := by
  have through : (breaker.acquire first.time).1 = .ok () := by
    rw [step_read (reads first List.mem_cons_self), ← readState_state] at moves
    unfold acquire
    generalize breaker.readState first.time = outcome at moves
    obtain ⟨state, after⟩ := outcome
    cases moves
    rfl
  have later := admitted_halfOpen moves fun other member => reads other (List.mem_cons_of_mem _ member)
  rw [admitted, later, acquires, acquires, List.countP_cons, Nat.add_comm]
  simp only [through, and_true, decide_eq_true_eq]

theorem run_append (breaker : CircuitBreaker) (first second : List Timed) :
    breaker.run (first ++ second) = (breaker.run first).run second := List.foldl_append

theorem became_halfOpen {breaker : CircuitBreaker} (closed : breaker.state = .closed)
    {calls : List Timed} (halfOpen : (breaker.run calls).state = .halfOpen) :
    ∃ before first window, calls = before ++ first :: window ∧
      (∀ timed ∈ first :: window, timed.call.reads) ∧ (breaker.run before).state = .open ∧
      ((breaker.run before).step first).state = .halfOpen := by
  induction calls using List.reverseRecOn with
  | nil =>
      rw [run_nil, closed] at halfOpen
      cases halfOpen
  | append_singleton earlier timed ih =>
      rw [run_concat] at halfOpen
      have reads : timed.call.reads := by
        cases call : timed.call with
        | state => rfl
        | acquire => rfl
        | onSuccess =>
            rw [step, call] at halfOpen
            cases halfOpen
        | onFailure =>
            rw [step, call] at halfOpen
            exact absurd halfOpen (onFailure_state _ timed.time)
      cases state : (breaker.run earlier).state with
      | closed =>
          rw [step_read reads] at halfOpen
          rcases readState_cases (breaker.run earlier) timed.time with same | ⟨isOpen, _⟩
          · rw [same, state] at halfOpen
            cases halfOpen
          · rw [state] at isOpen
            cases isOpen
      | «open» => exact ⟨earlier, timed, [], rfl, by simpa using reads, state, halfOpen⟩
      | halfOpen =>
          obtain ⟨before, first, window, rfl, allRead, isOpen, moves⟩ := ih state
          refine ⟨before, first, window ++ [timed], by simp, ?_, isOpen, moves⟩
          intro other member
          rw [← List.cons_append, List.mem_append, List.mem_singleton] at member
          rcases member with inside | rfl
          · exact allRead other inside
          · exact reads

theorem admitted_append (breaker : CircuitBreaker) (first second : List Timed) :
    breaker.admitted (first ++ second) = breaker.admitted first + (breaker.run first).admitted second := by
  induction first generalizing breaker with
  | nil => simp [admitted]
  | cons timed rest ih =>
      have later := ih (breaker.step timed)
      simp only [List.cons_append, admitted, later, Nat.add_assoc]
      rfl

end CircuitBreaker

open CircuitBreaker in
/-- Nothing but the callers keeps a second call from getting through. -/
theorem probes_single (failureThreshold cooldown : Nat) (calls : List Timed) (countable : Countable calls) :
    AdmitsOne (.withClock failureThreshold cooldown) calls ↔ AsksOnce failureThreshold cooldown calls := by
  have reflected : ∀ {before rest}, calls = before ++ rest → Reflects failureThreshold cooldown before
      ((withClock failureThreshold cooldown).run before) := by
    intro before rest split
    refine reflects_run failureThreshold cooldown before ?_
    intro earlier within
    exact countable earlier (within.trans ⟨rest, split.symm⟩)
  constructor
  · intro one before first window rest split reads last enough failed elapsed
    have reflects := reflected (show calls = before ++ (first :: window ++ rest) by simpa using split)
    have firstReads := reads first List.mem_cons_self
    have notClosed : ((withClock failureThreshold cooldown).run before).state ≠ .closed := by
      rw [Ne, reflects.closed]
      omega
    have same := reflects.opened notClosed
    rw [failed] at same
    cases same
    -- The window may start after the read that made the breaker half-open.
    cases state : ((withClock failureThreshold cooldown).run before).state with
    | closed => exact absurd state notClosed
    | «open» =>
        have moves : (((withClock failureThreshold cooldown).run before).step first).state = .halfOpen := by
          rw [step_read firstReads, readState, if_pos ⟨state, by rw [reflects.waits]; exact elapsed⟩]
        have bound := one before first window rest split reads state moves
        rwa [admitted_moved moves reads] at bound
    | halfOpen =>
        obtain ⟨before', first', window', rfl, reads', isOpen, moves⟩ := became_halfOpen rfl state
        have bound := one before' first' (window' ++ first :: window) rest (by simpa using split)
          (by
            intro timed member
            rw [← List.cons_append, List.mem_append] at member
            exact member.elim (reads' timed) (reads timed)) isOpen moves
        rw [← List.cons_append, admitted_append, ← run_append, admitted_halfOpen state reads] at bound
        omega
  · intro once before first window rest split reads isOpen moves
    have reflects := reflected (show calls = before ++ (first :: window ++ rest) by simpa using split)
    have notClosed : ((withClock failureThreshold cooldown).run before).state ≠ .closed := by
      rw [isOpen]
      exact BreakerState.noConfusion
    have enough : max failureThreshold 1 ≤ failures before := by
      rw [Ne, reflects.closed] at notClosed
      omega
    rw [step_read (reads first List.mem_cons_self)] at moves
    rcases readState_cases ((withClock failureThreshold cooldown).run before) first.time with
      same | ⟨_, elapsed, _⟩
    · rw [same, isOpen] at moves
      cases moves
    · rw [reflects.waits] at elapsed
      exact (admitted_le _ _).trans
        (once before first window rest split reads _ enough (reflects.opened notClosed) elapsed)

theorem probes_single_once :
    AdmitsOne (.withClock 1 10)
      [⟨.onFailure, 0⟩, ⟨.state, 10⟩, ⟨.acquire, 11⟩, ⟨.onFailure, 12⟩, ⟨.state, 22⟩, ⟨.onSuccess, 23⟩] := by
  refine (probes_single 1 10 _ (countable_of_length (by decide))).mpr ?_
  intro before first window rest split _ _ _ _ _
  have all := congrArg acquires split
  have total : acquires (before ++ first :: window ++ rest) =
      acquires before + acquires (first :: window) + acquires rest := by
    simp only [acquires, List.countP_append]
  rw [total, show acquires _ = 1 from rfl] at all
  omega

/-- Two callers ask while the outcome of the probe is outstanding. -/
theorem probes_pass : ¬ AdmitsOne (.withClock 1 10) [⟨.onFailure, 0⟩, ⟨.acquire, 10⟩, ⟨.acquire, 10⟩] := by
  intro one
  have bound := one [⟨.onFailure, 0⟩] ⟨.acquire, 10⟩ [⟨.acquire, 10⟩] [] rfl (by decide) (by decide)
    (by decide)
  revert bound
  decide

end ConnectForge.Resilience
