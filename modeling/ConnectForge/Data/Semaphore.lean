import Mathlib.Tactic.Common

namespace ConnectForge.Data

/-! Counting semaphores.

The operations are a parameter, and what is assumed of them is what their
documentation says: a permit is given exactly while one is left, and a permit that
is dropped goes back. -/

inductive TryAcquireError where
  | closed
  | noPermits
deriving DecidableEq

/-- The operations of `tokio::sync::Semaphore`. -/
structure Semaphore where
  State : Type
  Permit : Type
  /-- None is a panic: no semaphore has so many permits. -/
  new : Nat → Option State
  tryAcquireOwned : State → Except TryAcquireError Permit × State
  availablePermits : State → Nat
  /-- None is a panic: a permit too many. -/
  drop : State → Permit → Option State

/-- What the operations promise of a semaphore that is never closed.
`Holds free held state` is its meaning: so many permits are left, and these are out. -/
structure Semaphore.Lawful (ops : Semaphore) (Holds : Nat → List ops.Permit → ops.State → Prop) :
    Prop where
  new {permits state} (made : ops.new permits = some state) : Holds permits [] state
  none_left {held state result after} (holds : Holds 0 held state)
    (tried : ops.tryAcquireOwned state = (result, after)) :
    result = .error .noPermits ∧ Holds 0 held after
  one_left {free held state result after} (holds : Holds (free + 1) held state)
    (tried : ops.tryAcquireOwned state = (result, after)) :
    ∃ permit, result = .ok permit ∧ Holds free (permit :: held) after
  available {free held state} (holds : Holds free held state) : ops.availablePermits state = free
  drop {free before permit rest state} (holds : Holds free (before ++ permit :: rest) state) :
    ∃ after, ops.drop state permit = some after ∧ Holds (free + 1) (before ++ rest) after

namespace Semaphore

/-- `MAX_PERMITS` on 64 bits. -/
def maxPermits : Nat := 2305843009213693951

/-- A semaphore that is the number of permits left. -/
def counting : Semaphore where
  State := Nat
  Permit := Unit
  new permits := if permits ≤ maxPermits then some permits else none
  tryAcquireOwned
    | 0 => (.error .noPermits, 0)
    | free + 1 => (.ok (), free)
  availablePermits free := free
  drop free _ := if free + 1 ≤ maxPermits then some (free + 1) else none

def Counts (free : Nat) (held : List Unit) (state : Nat) : Prop :=
  state = free ∧ free + held.length ≤ maxPermits

theorem Counts.fewer {free state : Nat} {held : List Unit} (counts : Counts (free + 1) held state) :
    state = free + 1 ∧ Counts free (() :: held) free := by
  obtain ⟨same, bounded⟩ := counts
  refine ⟨same, rfl, ?_⟩
  rw [List.length_cons]
  omega

theorem Counts.more {free state : Nat} {before rest : List Unit}
    (counts : Counts free (before ++ () :: rest) state) :
    state + 1 ≤ maxPermits ∧ Counts (free + 1) (before ++ rest) (state + 1) := by
  obtain ⟨rfl, bounded⟩ := counts
  rw [List.length_append, List.length_cons] at bounded
  refine ⟨by omega, rfl, ?_⟩
  rw [List.length_append]
  omega

theorem counting_lawful : counting.Lawful Counts where
  new := by
    intro permits state made
    change (if permits ≤ maxPermits then some permits else none) = _ at made
    split at made
    · rename_i bounded
      cases made
      exact ⟨rfl, bounded⟩
    · cases made
  none_left := by
    rintro held _ result after ⟨rfl, bounded⟩ tried
    cases tried
    exact ⟨rfl, rfl, bounded⟩
  one_left := by
    intro free held state result after holds tried
    obtain ⟨rfl, fewer⟩ := Counts.fewer holds
    cases tried
    exact ⟨(), rfl, fewer⟩
  available holds := holds.1
  drop := by
    intro free before permit rest state holds
    obtain ⟨bounded, more⟩ := Counts.more holds
    exact ⟨_, if_pos bounded, more⟩

end Semaphore

end ConnectForge.Data
