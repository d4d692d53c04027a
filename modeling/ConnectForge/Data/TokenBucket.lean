import Mathlib.Algebra.Order.Field.Basic
import Mathlib.Tactic.Linarith

namespace ConnectForge.Data

/-! Token buckets.

A bucket gains tokens at a constant rate up to its capacity.  It is looked at
only when somebody asks for some of them, and then it has what was left after
the last request and what came in since. -/

variable {K : Type} [Field K] [LinearOrder K] [IsStrictOrderedRing K]

structure Bucket (K : Type) [Field K] [LinearOrder K] where
  capacity : K
  rate : K
  capacity_nonneg : 0 ≤ capacity
  rate_nonneg : 0 ≤ rate

structure Level (K : Type) where
  tokens : K
  time : K

structure Request (K : Type) where
  count : K
  time : K

namespace Bucket

variable (bucket : Bucket K)

def available (level : Level K) (now : K) : K :=
  min (level.tokens + bucket.rate * (now - level.time)) bucket.capacity

/-- The part of a request that is granted, all of it or nothing. -/
def grant (level : Level K) (request : Request K) : K :=
  if request.count ≤ bucket.available level request.time then request.count else 0

def serve (level : Level K) (request : Request K) : Level K where
  tokens := bucket.available level request.time - bucket.grant level request
  time := request.time

def serveAll (level : Level K) (requests : List (Request K)) : Level K :=
  requests.foldl bucket.serve level

def granted : Level K → List (Request K) → K
  | _, [] => 0
  | level, request :: rest => bucket.grant level request + granted (bucket.serve level request) rest

def Within (level : Level K) : Prop := 0 ≤ level.tokens ∧ level.tokens ≤ bucket.capacity

/-- Requests in the order of their times, none before a given one. -/
def Ordered (start : K) (requests : List (Request K)) : Prop :=
  (start :: requests.map Request.time).Pairwise (· ≤ ·)

omit [Field K] [IsStrictOrderedRing K] in
theorem Ordered.cons {start : K} {first : Request K} {rest : List (Request K)}
    (ordered : Ordered start (first :: rest)) : start ≤ first.time ∧ Ordered first.time rest := by
  obtain ⟨before, later⟩ := List.pairwise_cons.mp ordered
  exact ⟨before _ List.mem_cons_self, later⟩

variable {bucket} {level : Level K} {request : Request K}

theorem available_nonneg (within : bucket.Within level) {now : K} (later : level.time ≤ now) :
    0 ≤ bucket.available level now := by
  have gained := mul_nonneg bucket.rate_nonneg (sub_nonneg.mpr later)
  exact le_min (add_nonneg within.1 gained) bucket.capacity_nonneg

theorem grant_le (within : bucket.Within level) (later : level.time ≤ request.time) :
    bucket.grant level request ≤ bucket.available level request.time := by
  unfold grant
  split
  · assumption
  · exact available_nonneg within later

omit [IsStrictOrderedRing K] in
theorem grant_nonneg (asks : 0 ≤ request.count) : 0 ≤ bucket.grant level request := by
  unfold grant
  split
  · exact asks
  · exact le_refl 0

theorem Within.serve (within : bucket.Within level) (later : level.time ≤ request.time)
    (asks : 0 ≤ request.count) : bucket.Within (bucket.serve level request) := by
  have taken := grant_le within later
  have full := min_le_right (level.tokens + bucket.rate * (request.time - level.time)) bucket.capacity
  have kept : 0 ≤ bucket.grant level request := grant_nonneg asks
  exact ⟨sub_nonneg.mpr taken, (sub_le_self _ kept).trans full⟩

theorem Within.serveAll {requests : List (Request K)} (within : bucket.Within level)
    (ordered : Ordered level.time requests) (ask : ∀ request ∈ requests, 0 ≤ request.count) :
    bucket.Within (bucket.serveAll level requests) := by
  induction requests generalizing level with
  | nil => exact within
  | cons first rest ih =>
      obtain ⟨later, rest'⟩ := ordered.cons
      exact ih (within.serve later (ask first List.mem_cons_self)) rest'
        fun request member => ask request (List.mem_cons_of_mem _ member)

theorem granted_add_tokens (level : Level K) (requests : List (Request K)) :
    bucket.granted level requests + (bucket.serveAll level requests).tokens ≤
      level.tokens + bucket.rate * ((bucket.serveAll level requests).time - level.time) := by
  induction requests generalizing level with
  | nil => simp [granted, serveAll]
  | cons first rest ih =>
      have later := ih (bucket.serve level first)
      have filled := min_le_left (level.tokens + bucket.rate * (first.time - level.time)) bucket.capacity
      have left : (bucket.serve level first).tokens =
          bucket.available level first.time - bucket.grant level first := rfl
      have when : (bucket.serve level first).time = first.time := rfl
      change bucket.grant level first + bucket.granted (bucket.serve level first) rest +
        (bucket.serveAll (bucket.serve level first) rest).tokens ≤ level.tokens + bucket.rate *
          ((bucket.serveAll (bucket.serve level first) rest).time - level.time)
      rw [left, when] at later
      unfold available at later
      linarith

omit [Field K] [IsStrictOrderedRing K] in
theorem Ordered.before {start : K} {before rest : List (Request K)}
    (ordered : Ordered start (before ++ rest)) : Ordered start before := by
  refine List.Pairwise.sublist ?_ ordered
  rw [List.map_append]
  exact (List.sublist_append_left _ _).cons_cons start

omit [IsStrictOrderedRing K] in
theorem Ordered.after {before rest : List (Request K)} (ordered : Ordered level.time (before ++ rest)) :
    Ordered (bucket.serveAll level before).time rest := by
  induction before generalizing level with
  | nil => exact ordered
  | cons first later ih => exact @ih (bucket.serve level first) ordered.cons.2

omit [IsStrictOrderedRing K] in
theorem serveAll_time (level : Level K) (first : Request K) (rest : List (Request K)) :
    (bucket.serveAll level (first :: rest)).time =
      ((first :: rest).getLast (List.cons_ne_nil first rest)).time := by
  induction rest generalizing level first with
  | nil => rfl
  | cons second rest ih =>
      rw [List.getLast_cons (List.cons_ne_nil second rest)]
      exact ih (bucket.serve level first) second

/-- In no window more is granted than the capacity and what comes in during
it. -/
theorem granted_window {first : Request K} {rest : List (Request K)} (within : bucket.Within level)
    (ordered : Ordered level.time (first :: rest)) (ask : ∀ request ∈ first :: rest, 0 ≤ request.count) :
    bucket.granted level (first :: rest) ≤ bucket.capacity + bucket.rate *
      (((first :: rest).getLast (List.cons_ne_nil first rest)).time - first.time) := by
  obtain ⟨later, _⟩ := ordered.cons
  have full := min_le_right (level.tokens + bucket.rate * (first.time - level.time)) bucket.capacity
  have left : (bucket.serve level first).tokens =
      bucket.available level first.time - bucket.grant level first := rfl
  have balance := @granted_add_tokens K _ _ _ bucket (bucket.serve level first) rest
  have remains := (within.serveAll ordered ask).1
  rw [← serveAll_time level first rest]
  change bucket.grant level first + bucket.granted (bucket.serve level first) rest ≤
    bucket.capacity + bucket.rate *
      ((bucket.serveAll (bucket.serve level first) rest).time - (bucket.serve level first).time)
  change 0 ≤ (bucket.serveAll (bucket.serve level first) rest).tokens at remains
  rw [left] at balance
  unfold available at balance
  linarith

end Bucket

end ConnectForge.Data
