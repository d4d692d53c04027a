import Mathlib.Order.Monotone.Basic
import ConnectForge.Types.Units

namespace ConnectForge.Resilience

/-! The delay between two attempts.  Arithmetic that would overflow, divide by
zero or panic has no result. -/

/-- One more than the nanoseconds of `Duration::MAX`. -/
def durationModulus : Nat := 2 ^ 64 * 1000000000

/-- `std::time::Duration`, in nanoseconds. -/
structure Duration where
  nanos : Nat
  bounded : nanos < durationModulus
deriving DecidableEq

/-- `<<` on a `u32`. -/
def shlU32 (value bits : Nat) : Option Nat :=
  if bits < 32 then some ((value <<< bits) % u32Modulus) else none

def addU64 (left right : Nat) : Option Nat :=
  if left + right < u64Modulus then some (left + right) else none

def remU64 (left right : Nat) : Option Nat :=
  if right = 0 then none else some (left % right)

namespace Duration

def zero : Duration := ⟨0, by decide⟩

def max : Duration := ⟨durationModulus - 1, by decide⟩

def saturatingMul (duration : Duration) (factor : Nat) : Duration :=
  if fits : duration.nanos * factor < durationModulus then ⟨duration.nanos * factor, fits⟩ else max

def min (left right : Duration) : Duration := if left.nanos ≤ right.nanos then left else right

/-- `/` by a `u32`. -/
def div (duration : Duration) (divisor : Nat) : Option Duration :=
  if divisor = 0 then none
  else some ⟨duration.nanos / divisor, Nat.lt_of_le_of_lt (Nat.div_le_self _ _) duration.bounded⟩

def add (left right : Duration) : Option Duration :=
  if fits : left.nanos + right.nanos < durationModulus then some ⟨_, fits⟩ else none

/-- A `u128`. -/
def asNanos (duration : Duration) : Nat := duration.nanos

def subsecNanos (duration : Duration) : Nat := duration.nanos % 1000000000

/-- The argument is a `u64`. -/
def fromNanos (nanos : Nat) : Duration :=
  ⟨nanos % u64Modulus, Nat.lt_trans (Nat.mod_lt _ (by decide)) (by decide)⟩

def fromMillis (millis : Nat) : Duration :=
  ⟨millis % u64Modulus * 1000000, by
    have small : millis % u64Modulus < u64Modulus := Nat.mod_lt _ (by decide)
    unfold u64Modulus at small
    unfold u64Modulus durationModulus
    omega⟩

def fromSecs (secs : Nat) : Duration :=
  ⟨secs % u64Modulus * 1000000000, by
    have small : secs % u64Modulus < u64Modulus := Nat.mod_lt _ (by decide)
    unfold u64Modulus at small
    unfold u64Modulus durationModulus
    omega⟩

theorem nanos_saturatingMul (duration : Duration) (factor : Nat) :
    (duration.saturatingMul factor).nanos = Min.min (duration.nanos * factor) max.nanos := by
  have top : max.nanos + 1 = durationModulus := by decide
  unfold saturatingMul
  split
  · rename_i fits
    have below : duration.nanos * factor ≤ max.nanos := by omega
    exact (Nat.min_eq_left below).symm
  · rename_i exceeds
    have above : max.nanos ≤ duration.nanos * factor := by omega
    exact (Nat.min_eq_right above).symm

theorem nanos_min (left right : Duration) : (left.min right).nanos = Min.min left.nanos right.nanos := by
  unfold min
  split
  · rename_i below
    exact (Nat.min_eq_left below).symm
  · rename_i above
    exact (Nat.min_eq_right (Nat.le_of_not_le above)).symm

end Duration

structure RetryPolicy where
  maxAttempts : Nat
  baseDelay : Duration
  maxDelay : Duration

namespace RetryPolicy

def default : RetryPolicy where
  maxAttempts := 3
  baseDelay := .fromMillis 20
  maxDelay := .fromSecs 1

variable (policy : RetryPolicy)

/-- The jitter on top of half of the capped delay. -/
def jitter (half : Duration) (nanos : Nat) : Option Duration :=
  if half.asNanos = 0 then some .zero
  else do
    -- The cast to `u64` drops the upper half.
    let width ← addU64 (half.asNanos % u64Modulus) 1
    let rest ← remU64 nanos width
    return .fromNanos rest

/-- The clock reading is the time since the Unix epoch, and absent before it. -/
def backoff (attempt : Nat) (now : Option Duration) : Option Duration := do
  let factor ← shlU32 1 (min attempt 16)
  let exp := policy.baseDelay.saturatingMul factor
  let capped := exp.min policy.maxDelay
  let half ← capped.div 2
  let nanos := (now.map Duration.subsecNanos).getD 0
  let jitter ← jitter half nanos
  half.add jitter

/-- What the delay of an attempt is capped at, in nanoseconds. -/
def cap (attempt : Nat) : Nat :=
  min (min (policy.baseDelay.nanos * 2 ^ min attempt 16) Duration.max.nanos)
    policy.maxDelay.nanos

/-- The delay can be computed: half of the cap has a successor where the code
looks for it. -/
def Computes (attempt : Nat) : Prop := policy.cap attempt / 2 % u64Modulus + 1 < u64Modulus

instance (attempt : Nat) : Decidable (policy.Computes attempt) :=
  inferInstanceAs (Decidable (_ < _))

variable {policy}

theorem shlU32_one {bits : Nat} (small : bits ≤ 16) : shlU32 1 bits = some (2 ^ bits) := by
  have power : 2 ^ bits < u32Modulus := Nat.pow_lt_pow_right (by decide) (by omega)
  rw [shlU32, if_pos (by omega), Nat.shiftLeft_eq, Nat.one_mul, Nat.mod_eq_of_lt power]

theorem cap_lt (attempt : Nat) : policy.cap attempt < durationModulus :=
  Nat.lt_of_le_of_lt (Nat.min_le_right _ _) policy.maxDelay.bounded

theorem jitter_eq (half : Duration) {nanos : Nat} (small : nanos < 1000000000) :
    (jitter half nanos).map Duration.nanos =
      if half.nanos % u64Modulus + 1 < u64Modulus then some (nanos % (half.nanos % u64Modulus + 1))
      else none := by
  unfold jitter Duration.asNanos
  split
  · rename_i none
    rw [none, if_pos (by decide), Nat.zero_mod, Nat.zero_add, Nat.mod_one]
    rfl
  · unfold addU64
    split
    · have below : nanos % (half.nanos % u64Modulus + 1) < u64Modulus := by
        have less := Nat.mod_le nanos (half.nanos % u64Modulus + 1)
        unfold u64Modulus at less ⊢
        omega
      simp [remU64, Duration.fromNanos, Nat.mod_eq_of_lt below]
    · rfl

/-- The delay, where it can be computed: half of the cap, and up to as much again
by the clock. -/
theorem backoff_eq (attempt : Nat) (now : Option Duration) :
    (policy.backoff attempt now).map Duration.nanos =
      if policy.Computes attempt then
        some (policy.cap attempt / 2 +
          (now.map Duration.subsecNanos).getD 0 % (policy.cap attempt / 2 % u64Modulus + 1))
      else none := by
  have factor := shlU32_one (Nat.min_le_right attempt 16)
  have capped : ((policy.baseDelay.saturatingMul (2 ^ min attempt 16)).min policy.maxDelay).nanos =
      policy.cap attempt := by
    rw [Duration.nanos_min, Duration.nanos_saturatingMul, cap]
  have bound := policy.cap_lt attempt
  have small : (now.map Duration.subsecNanos).getD 0 < 1000000000 := by
    cases now with
    | none => decide
    | some now => exact Nat.mod_lt _ (by decide)
  unfold backoff
  simp only [factor, Option.bind_eq_bind, Option.bind_some]
  generalize (policy.baseDelay.saturatingMul (2 ^ min attempt 16)).min policy.maxDelay = duration
    at capped ⊢
  generalize (now.map Duration.subsecNanos).getD 0 = nanos at small ⊢
  obtain ⟨half, halved, size⟩ : ∃ half, duration.div 2 = some half ∧ half.nanos = policy.cap attempt / 2 :=
    ⟨_, rfl, by rw [← capped]⟩
  have jittered : (jitter half nanos).map Duration.nanos =
      if policy.Computes attempt then some (nanos % (policy.cap attempt / 2 % u64Modulus + 1))
      else none := by
    rw [jitter_eq half small, size]
    rfl
  simp only [halved, Option.bind_some]
  by_cases computes : policy.Computes attempt
  · rw [if_pos computes] at jittered ⊢
    obtain ⟨delay, found, value⟩ := Option.map_eq_some_iff.mp jittered
    have less := Nat.mod_le nanos (policy.cap attempt / 2 % u64Modulus + 1)
    have fits : half.nanos + delay.nanos < durationModulus := by
      rw [size, value]
      unfold durationModulus at bound ⊢
      omega
    rw [found, Option.bind_some, Duration.add, dif_pos fits, Option.map_some, ← value, ← size]
  · rw [if_neg computes] at jittered ⊢
    rw [Option.map_eq_none_iff.mp jittered]
    rfl

theorem backoff_none (attempt : Nat) (now : Option Duration) :
    policy.backoff attempt now = none ↔ ¬ policy.Computes attempt := by
  rw [← Option.map_eq_none_iff, backoff_eq]
  split <;> simp_all

theorem cap_mono : Monotone policy.cap := by
  intro earlier later before
  have exponent : min earlier 16 ≤ min later 16 := by omega
  have scaled := Nat.mul_le_mul_left policy.baseDelay.nanos (Nat.pow_le_pow_right (by decide : 0 < 2) exponent)
  unfold cap
  omega

/-- The delay of an attempt that is capped below `2 ^ 65` nanoseconds. -/
theorem computes_of_lt {attempt : Nat} (short : policy.cap attempt + 2 < 2 * u64Modulus) :
    policy.Computes attempt := by
  unfold Computes u64Modulus at *
  omega

end RetryPolicy

/-- With a maximal delay below `2 ^ 64` nanoseconds every delay can be computed,
and it lies between half of its cap and the cap, which does not shrink from one
attempt to the next. -/
theorem backoff_bounded {policy : RetryPolicy} (short : policy.maxDelay.nanos < u64Modulus) :
    (∀ attempt now, ∃ delay, policy.backoff attempt now = some delay ∧
      policy.cap attempt / 2 ≤ delay.nanos ∧ delay.nanos ≤ policy.cap attempt) ∧
    Monotone policy.cap := by
  refine ⟨?_, RetryPolicy.cap_mono⟩
  intro attempt now
  have below : policy.cap attempt ≤ policy.maxDelay.nanos := Nat.min_le_right _ _
  have wide : 2 < u64Modulus := by decide
  have computes : policy.Computes attempt := RetryPolicy.computes_of_lt (by omega)
  have result := @RetryPolicy.backoff_eq policy attempt now
  rw [if_pos computes] at result
  obtain ⟨delay, found, value⟩ := Option.map_eq_some_iff.mp result
  have width : policy.cap attempt / 2 % u64Modulus = policy.cap attempt / 2 :=
    Nat.mod_eq_of_lt (by omega)
  have jitter : (now.map Duration.subsecNanos).getD 0 % (policy.cap attempt / 2 + 1) <
      policy.cap attempt / 2 + 1 := Nat.mod_lt _ (Nat.succ_pos _)
  rw [width] at value
  refine ⟨delay, found, ?_, ?_⟩ <;> omega

/-- The delays of the default policy. -/
theorem backoff_bounded_default :
    RetryPolicy.default.maxDelay.nanos < u64Modulus ∧
    ∃ delay, RetryPolicy.default.backoff 2 (some (.fromMillis 7)) = some delay ∧
      40000000 ≤ delay.nanos ∧ delay.nanos ≤ 80000000 := by
  have short : RetryPolicy.default.maxDelay.nanos < u64Modulus := by decide
  exact ⟨short, (backoff_bounded short).1 2 (some (.fromMillis 7))⟩

end ConnectForge.Resilience
