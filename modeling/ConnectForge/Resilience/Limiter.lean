import Mathlib.Algebra.Order.Ring.Rat
import ConnectForge.Data.TokenBucket

namespace ConnectForge.Resilience

open ConnectForge.Data

/-! The rate limiter, with numbers and clock readings as rationals. -/

/-- Returned when a request is denied because the token bucket is empty. -/
inductive RateLimited where
  | limited
deriving DecidableEq

structure RateLimiter where
  capacity : ℚ
  refillPerSec : ℚ
  tokens : ℚ
  lastRefill : ℚ
deriving DecidableEq

namespace RateLimiter

def withClock (capacity refillPerSec now : ℚ) : RateLimiter where
  capacity := max capacity 1
  refillPerSec := max refillPerSec 0
  tokens := max capacity 1
  lastRefill := now

def refill (limiter : RateLimiter) (now : ℚ) : RateLimiter :=
  -- `saturating_sub`
  let elapsed := max (now - limiter.lastRefill) 0
  if 0 < elapsed then
    { limiter with
      tokens := min (limiter.tokens + elapsed * limiter.refillPerSec) limiter.capacity
      lastRefill := now }
  else limiter

def tryAcquireN (limiter : RateLimiter) (request : Request ℚ) : Except RateLimited Unit × RateLimiter :=
  let limiter := limiter.refill request.time
  if request.count ≤ limiter.tokens then
    (.ok (), { limiter with tokens := limiter.tokens - request.count })
  else (.error .limited, limiter)

def run (limiter : RateLimiter) (requests : List (Request ℚ)) : RateLimiter :=
  requests.foldl (fun limiter request => (limiter.tryAcquireN request).2) limiter

def granted : RateLimiter → List (Request ℚ) → ℚ
  | _, [] => 0
  | limiter, request :: rest =>
      (match (limiter.tryAcquireN request).1 with
        | .ok () => request.count
        | .error _ => 0) + granted (limiter.tryAcquireN request).2 rest

end RateLimiter

def limiterBucket (capacity refillPerSec : ℚ) : Bucket ℚ where
  capacity := max capacity 1
  rate := max refillPerSec 0
  capacity_nonneg := zero_le_one.trans (le_max_right capacity 1)
  rate_nonneg := le_max_right refillPerSec 0

/-- A limiter that has as much as a bucket has. -/
structure Tracks (bucket : Bucket ℚ) (level : Level ℚ) (limiter : RateLimiter) : Prop where
  capacity : limiter.capacity = bucket.capacity
  rate : limiter.refillPerSec = bucket.rate
  tokens : limiter.tokens = level.tokens
  lastRefill : limiter.lastRefill = level.time

variable {bucket : Bucket ℚ} {level : Level ℚ} {limiter : RateLimiter} {request : Request ℚ}

/-- A refill in no time changes nothing, and does not have to. -/
theorem Tracks.refill (tracks : Tracks bucket level limiter) (within : bucket.Within level) {now : ℚ}
    (later : level.time ≤ now) :
    limiter.refill now =
      { limiter with tokens := bucket.available level now, lastRefill := now } := by
  have elapsed : max (now - limiter.lastRefill) 0 = now - level.time := by
    rw [tracks.lastRefill]
    exact max_eq_left (sub_nonneg.mpr later)
  unfold RateLimiter.refill
  simp only [elapsed]
  split
  · simp only [Bucket.available, tracks.tokens, tracks.rate, tracks.capacity, mul_comm]
  · rename_i still
    have same : level.time = now := le_antisymm later (by linarith)
    have full : bucket.available level now = limiter.tokens := by
      rw [Bucket.available, same, sub_self, mul_zero, add_zero, tracks.tokens]
      exact min_eq_left within.2
    rw [full, ← same, ← tracks.lastRefill]

theorem Tracks.acquire (tracks : Tracks bucket level limiter) (within : bucket.Within level)
    (later : level.time ≤ request.time) :
    Tracks bucket (bucket.serve level request) (limiter.tryAcquireN request).2 ∧
      ((limiter.tryAcquireN request).1 = .error .limited ↔
        bucket.available level request.time < request.count) ∧
      (match (limiter.tryAcquireN request).1 with
        | .ok () => request.count
        | .error _ => 0) = bucket.grant level request := by
  unfold RateLimiter.tryAcquireN Bucket.serve Bucket.grant
  rw [tracks.refill within later]
  dsimp only
  by_cases enough : request.count ≤ bucket.available level request.time
  · rw [if_pos enough, if_pos enough]
    refine ⟨⟨tracks.capacity, tracks.rate, rfl, rfl⟩, ?_, rfl⟩
    constructor
    · intro impossible
      cases impossible
    · intro short
      exact absurd enough (not_le.mpr short)
  · rw [if_neg enough, if_neg enough]
    refine ⟨⟨tracks.capacity, tracks.rate, (sub_zero _).symm, rfl⟩, ?_, rfl⟩
    exact iff_of_true rfl (not_le.mp enough)

theorem Tracks.run {requests : List (Request ℚ)} (tracks : Tracks bucket level limiter)
    (within : bucket.Within level) (ordered : Bucket.Ordered level.time requests)
    (ask : ∀ request ∈ requests, 0 ≤ request.count) :
    Tracks bucket (bucket.serveAll level requests) (limiter.run requests) ∧
      limiter.granted requests = bucket.granted level requests := by
  induction requests generalizing level limiter with
  | nil => exact ⟨tracks, rfl⟩
  | cons first rest ih =>
      obtain ⟨later, rest'⟩ := ordered.cons
      obtain ⟨next, _, same⟩ := tracks.acquire within later
      obtain ⟨tracked, total⟩ := ih next (within.serve later (ask first List.mem_cons_self)) rest'
        fun request member => ask request (List.mem_cons_of_mem _ member)
      refine ⟨tracked, ?_⟩
      rw [RateLimiter.granted, Bucket.granted, same, total]

/-- A limiter has at most its capacity, grants at most that and what comes in,
over any window, and refuses only what it does not have. -/
theorem limiter_admits (capacity refillPerSec start : ℚ) (requests : List (Request ℚ))
    (ordered : Bucket.Ordered start requests) (ask : ∀ request ∈ requests, 0 ≤ request.count) :
    (∀ before rest, requests = before ++ rest →
      0 ≤ ((RateLimiter.withClock capacity refillPerSec start).run before).tokens ∧
      ((RateLimiter.withClock capacity refillPerSec start).run before).tokens ≤ max capacity 1) ∧
    (∀ before first window rest, requests = before ++ first :: window ++ rest →
      ((RateLimiter.withClock capacity refillPerSec start).run before).granted (first :: window) ≤
        max capacity 1 + max refillPerSec 0 *
          (((first :: window).getLast (List.cons_ne_nil first window)).time - first.time)) ∧
    (∀ before request rest, requests = before ++ request :: rest →
      ((((RateLimiter.withClock capacity refillPerSec start).run before).tryAcquireN request).1 =
          .error .limited ↔
        (limiterBucket capacity refillPerSec).available
          ((limiterBucket capacity refillPerSec).serveAll ⟨max capacity 1, start⟩ before) request.time <
            request.count)) := by
  have full : (limiterBucket capacity refillPerSec).Within ⟨max capacity 1, start⟩ :=
    ⟨(limiterBucket capacity refillPerSec).capacity_nonneg, le_refl _⟩
  have fresh : Tracks (limiterBucket capacity refillPerSec) ⟨max capacity 1, start⟩
      (.withClock capacity refillPerSec start) := ⟨rfl, rfl, rfl, rfl⟩
  have served : ∀ before rest, requests = before ++ rest →
      (limiterBucket capacity refillPerSec).Within
        ((limiterBucket capacity refillPerSec).serveAll ⟨max capacity 1, start⟩ before) ∧
      Tracks (limiterBucket capacity refillPerSec)
        ((limiterBucket capacity refillPerSec).serveAll ⟨max capacity 1, start⟩ before)
        ((RateLimiter.withClock capacity refillPerSec start).run before) ∧
      Bucket.Ordered
        ((limiterBucket capacity refillPerSec).serveAll ⟨max capacity 1, start⟩ before).time rest := by
    rintro before rest rfl
    have asks : ∀ request ∈ before, 0 ≤ request.count :=
      fun request member => ask request (List.mem_append_left _ member)
    exact ⟨full.serveAll ordered.before asks, (fresh.run full ordered.before asks).1,
      @Bucket.Ordered.after ℚ _ _ _ ⟨max capacity 1, start⟩ before rest ordered⟩
  refine ⟨?_, ?_, ?_⟩
  · intro before rest split
    obtain ⟨within, tracks, _⟩ := served before rest split
    rw [tracks.tokens]
    exact within
  · intro before first window rest split
    obtain ⟨within, tracks, later⟩ := served before (first :: window ++ rest) (by simpa using split)
    have asks : ∀ request ∈ first :: window, 0 ≤ request.count := by
      intro request member
      apply ask
      rw [split]
      exact List.mem_append_left _ (List.mem_append_right _ member)
    rw [(tracks.run within later.before asks).2]
    exact Bucket.granted_window within later.before asks
  · intro before request rest split
    obtain ⟨within, tracks, later⟩ := served before (request :: rest) split
    exact (tracks.acquire within later.cons.1).2.1

/-- Two tokens, one more each second. -/
theorem limiter_admits_burst :
    (RateLimiter.withClock 2 1 0).granted [⟨1, 0⟩, ⟨1, 0⟩, ⟨1, 0⟩, ⟨1, 1⟩] ≤ max 2 1 + max 1 0 * (1 - 0) := by
  refine (limiter_admits 2 1 0 _ ?_ ?_).2.1 [] ⟨1, 0⟩ [⟨1, 0⟩, ⟨1, 0⟩, ⟨1, 1⟩] [] rfl
  · simp [Bucket.Ordered]
  · simp

end ConnectForge.Resilience
