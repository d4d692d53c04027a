import Mathlib.Data.Int.CardIntervalMod

namespace ConnectForge.Data

/-! Dealing out slots in turn. -/

/-- The first `total` slots of a round over `count` of them, wherever it
starts. -/
def dealt (count first total : Nat) : List Nat :=
  (List.range total).map fun index => (first + index) % count

theorem dealt_succ (count first total : Nat) :
    dealt count first (total + 1) = dealt count first total ++ [(first + total) % count] := by
  rw [dealt, List.range_succ, List.map_append]
  rfl

theorem countP_range (holds : Nat → Prop) [DecidablePred holds] (total : Nat) :
    (List.range total).countP (fun index => decide (holds index)) = total.count holds := by
  induction total with
  | zero => rfl
  | succ total ih =>
      rw [List.range_succ, List.countP_append, ih, Nat.count_succ]
      simp [List.countP_cons]

theorem slot_iff {count slot : Nat} (inside : slot < count) (first index : Nat) :
    (first + index) % count = slot ↔ index ≡ slot + (count - first % count) [MOD count] := by
  have positive : 0 < count := by omega
  have small := Nat.mod_lt first positive
  have whole : first % count + (slot + (count - first % count)) = slot + count := by omega
  have shifted : first + (slot + (count - first % count)) ≡ slot [MOD count] := by
    unfold Nat.ModEq
    rw [← Nat.mod_add_mod, whole, Nat.add_mod_right]
  constructor
  · intro here
    have same : first + index ≡ slot [MOD count] := by
      rw [Nat.ModEq, here, Nat.mod_eq_of_lt inside]
    exact Nat.ModEq.add_left_cancel' first (same.trans shifted.symm)
  · intro here
    have same := (Nat.ModEq.add_left first here).trans shifted
    rw [Nat.ModEq, Nat.mod_eq_of_lt inside] at same
    exact same

theorem count_dealt {count slot : Nat} (inside : slot < count) (first total : Nat) :
    total / count ≤ (dealt count first total).count slot ∧
      (dealt count first total).count slot ≤ total / count + 1 := by
  have turns : (dealt count first total).count slot =
      total.count (· ≡ slot + (count - first % count) [MOD count]) := by
    rw [dealt, List.count, List.countP_map, ← countP_range]
    apply List.countP_congr
    intro index _
    simp only [Function.comp_apply, beq_iff_eq, decide_eq_true_eq]
    exact slot_iff inside first index
  rw [turns, Nat.count_modEq_card _ (by omega)]
  split <;> omega

/-- No slot is ever more than one turn ahead of another. -/
theorem dealt_evenly {count left right : Nat} (leftInside : left < count) (rightInside : right < count)
    (first total : Nat) :
    (dealt count first total).count left ≤ (dealt count first total).count right + 1 := by
  have upper := (count_dealt leftInside first total).2
  have lower := (count_dealt rightInside first total).1
  omega

end ConnectForge.Data
