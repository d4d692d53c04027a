import Mathlib.Logic.Relation
import ConnectForge.Data.Semaphore

namespace ConnectForge.Resilience

open Data

/-! The bulkhead, over the operations of a semaphore, and the guards it has given
out. -/

/-- Returned when the bulkhead is at capacity and admits no more work. -/
inductive BulkheadFull where
  | full
deriving DecidableEq

/-- The permit a guard holds until it is dropped. -/
structure BulkheadGuard (ops : Semaphore) where
  permit : ops.Permit

structure Bulkhead (ops : Semaphore) where
  sem : ops.State

namespace Bulkhead

variable {ops : Semaphore}

/-- None is the semaphore's panic. -/
def new (ops : Semaphore) (maxConcurrent : Nat) : Option (Bulkhead ops) :=
  (ops.new (max maxConcurrent 1)).map Bulkhead.mk

def tryAcquire (bulkhead : Bulkhead ops) : Except BulkheadFull (BulkheadGuard ops) × Bulkhead ops :=
  match ops.tryAcquireOwned bulkhead.sem with
  | (.ok permit, sem) => (.ok ⟨permit⟩, ⟨sem⟩)
  | (.error _, sem) => (.error .full, ⟨sem⟩)

/-- Number of currently available slots. -/
def available (bulkhead : Bulkhead ops) : Nat := ops.availablePermits bulkhead.sem

/-- A guard goes out of scope, and its permit with it. -/
def dropGuard (bulkhead : Bulkhead ops) (guard : BulkheadGuard ops) : Option (Bulkhead ops) :=
  (ops.drop bulkhead.sem guard.permit).map Bulkhead.mk

end Bulkhead

/-- A bulkhead, whose clones share its permits, and the guards that are alive. -/
structure Compartment (ops : Semaphore) where
  bulkhead : Bulkhead ops
  guards : List (BulkheadGuard ops)

namespace Compartment

variable {ops : Semaphore}

/-- Whoever has a clone tries for a slot, or drops a guard. -/
inductive Step : Compartment ops → Compartment ops → Prop where
  | acquire {bulkhead after guards answer} (answered : bulkhead.tryAcquire = (answer, after)) :
      Step ⟨bulkhead, guards⟩ ⟨after, answer.toOption.toList ++ guards⟩
  | drop {bulkhead after before guard rest} (dropped : bulkhead.dropGuard guard = some after) :
      Step ⟨bulkhead, before ++ guard :: rest⟩ ⟨after, before ++ rest⟩

def Reaches (bulkhead : Bulkhead ops) (compartment : Compartment ops) : Prop :=
  Relation.ReflTransGen Step ⟨bulkhead, []⟩ compartment

variable {Holds : Nat → List ops.Permit → ops.State → Prop} {capacity : Nat}
  {compartment after : Compartment ops}

/-- Every slot is free or in the hands of one guard. -/
def Accounted (Holds : Nat → List ops.Permit → ops.State → Prop) (capacity : Nat)
    (compartment : Compartment ops) : Prop :=
  ∃ free, compartment.guards.length + free = capacity ∧
    Holds free (compartment.guards.map BulkheadGuard.permit) compartment.bulkhead.sem

theorem Accounted.acquire (lawful : ops.Lawful Holds) (accounted : compartment.Accounted Holds capacity)
    {answer : Except BulkheadFull (BulkheadGuard ops)} {later : Bulkhead ops}
    (answered : compartment.bulkhead.tryAcquire = (answer, later)) :
    (answer = .error .full ↔ compartment.guards.length = capacity) ∧
      Accounted Holds capacity ⟨later, answer.toOption.toList ++ compartment.guards⟩ := by
  obtain ⟨free, total, holds⟩ := accounted
  unfold Bulkhead.tryAcquire at answered
  cases tried : ops.tryAcquireOwned compartment.bulkhead.sem with
  | mk result state =>
      rw [tried] at answered
      cases free with
      | zero =>
          obtain ⟨rfl, same⟩ := lawful.none_left holds tried
          cases answered
          exact ⟨by simpa using total, 0, total, same⟩
      | succ free =>
          obtain ⟨permit, rfl, fewer⟩ := lawful.one_left holds tried
          cases answered
          refine ⟨?_, free, ?_, fewer⟩
          · simp only [reduceCtorEq, false_iff]
            omega
          · change compartment.guards.length + 1 + free = capacity
            omega

theorem Accounted.drop {bulkhead : Bulkhead ops} {before rest : List (BulkheadGuard ops)}
    {guard : BulkheadGuard ops} (lawful : ops.Lawful Holds)
    (accounted : Accounted Holds capacity ⟨bulkhead, before ++ guard :: rest⟩) :
    ∃ later, bulkhead.dropGuard guard = some later ∧ later.available = bulkhead.available + 1 ∧
      Accounted Holds capacity ⟨later, before ++ rest⟩ := by
  obtain ⟨free, total, holds⟩ := accounted
  dsimp only at total holds
  rw [List.map_append, List.map_cons] at holds
  obtain ⟨state, dropped, more⟩ := lawful.drop holds
  refine ⟨⟨state⟩, ?_, ?_, free + 1, ?_, ?_⟩
  · rw [Bulkhead.dropGuard, dropped]
    rfl
  · rw [Bulkhead.available, Bulkhead.available, lawful.available more, lawful.available holds]
  · simp only [List.length_append, List.length_cons] at total ⊢
    omega
  · rw [List.map_append]
    exact more

theorem Accounted.step (lawful : ops.Lawful Holds) (accounted : compartment.Accounted Holds capacity)
    (step : Step compartment after) : after.Accounted Holds capacity := by
  cases step with
  | acquire answered => exact (accounted.acquire lawful answered).2
  | drop dropped =>
      obtain ⟨later, same, _, kept⟩ := accounted.drop lawful
      cases dropped.symm.trans same
      exact kept

theorem Reaches.accounted (lawful : ops.Lawful Holds) {bulkhead : Bulkhead ops} {maxConcurrent : Nat}
    (made : Bulkhead.new ops maxConcurrent = some bulkhead) (reached : Reaches bulkhead compartment) :
    compartment.Accounted Holds (max maxConcurrent 1) := by
  induction reached with
  | refl =>
      obtain ⟨state, opened, rfl⟩ := Option.map_eq_some_iff.mp made
      exact ⟨_, Nat.zero_add _, lawful.new opened⟩
  | tail _ step ih => exact ih.step lawful step

end Compartment

/-- However a bulkhead is used, its guards are never more than it was made for, it
refuses work only while there are as many, and dropping one always frees its
slot. -/
theorem bulkhead_bounds {ops : Semaphore} {Holds : Nat → List ops.Permit → ops.State → Prop}
    (lawful : ops.Lawful Holds) {maxConcurrent : Nat} {bulkhead : Bulkhead ops}
    (made : Bulkhead.new ops maxConcurrent = some bulkhead) {compartment : Compartment ops}
    (reached : Compartment.Reaches bulkhead compartment) :
    compartment.guards.length + compartment.bulkhead.available = max maxConcurrent 1 ∧
      (compartment.bulkhead.tryAcquire.1 = .error .full ↔
        compartment.guards.length = max maxConcurrent 1) ∧
      ∀ guard ∈ compartment.guards, ∃ later, compartment.bulkhead.dropGuard guard = some later ∧
        later.available = compartment.bulkhead.available + 1 := by
  have accounted := reached.accounted lawful made
  refine ⟨?_, (accounted.acquire lawful rfl).1, ?_⟩
  · obtain ⟨free, total, holds⟩ := accounted
    rw [Bulkhead.available, lawful.available holds]
    exact total
  · intro guard member
    obtain ⟨bulkhead, guards⟩ := compartment
    obtain ⟨before, rest, rfl⟩ := List.append_of_mem member
    obtain ⟨later, dropped, freed, _⟩ := accounted.drop lawful
    exact ⟨later, dropped, freed⟩

/-- Two guards of a bulkhead for two, the next one refused until the first is
dropped. -/
theorem bulkhead_bounds_two :
    ∃ (bulkhead : Bulkhead .counting) (full freed : Compartment .counting),
      Bulkhead.new .counting 2 = some bulkhead ∧
      Compartment.Reaches bulkhead full ∧ full.guards.length = 2 ∧
      full.bulkhead.tryAcquire.1 = .error .full ∧
      Compartment.Step full freed ∧ freed.guards.length = 1 ∧
      freed.bulkhead.tryAcquire.1 ≠ .error .full := by
  let bulkhead : Bulkhead .counting := ⟨(2 : Nat)⟩
  let full : Compartment .counting := ⟨⟨(0 : Nat)⟩, [⟨()⟩, ⟨()⟩]⟩
  let freed : Compartment .counting := ⟨⟨(1 : Nat)⟩, [⟨()⟩]⟩
  have first : Compartment.Reaches bulkhead ⟨⟨(1 : Nat)⟩, [⟨()⟩]⟩ := .single (.acquire rfl)
  have second : Compartment.Reaches bulkhead full := first.tail (.acquire rfl)
  have drops : Compartment.Step full freed :=
    @Compartment.Step.drop _ full.bulkhead freed.bulkhead [⟨()⟩] ⟨()⟩ [] rfl
  have made : Bulkhead.new .counting 2 = some bulkhead := rfl
  have bounds := bulkhead_bounds Semaphore.counting_lawful made second
  have again := bulkhead_bounds Semaphore.counting_lawful made (second.tail drops)
  refine ⟨bulkhead, full, freed, made, second, rfl, bounds.2.1.mpr rfl, drops, rfl, ?_⟩
  intro refused
  cases again.2.1.mp refused

end ConnectForge.Resilience
