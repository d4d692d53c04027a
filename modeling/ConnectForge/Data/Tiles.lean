import Mathlib.Algebra.Order.Ring.Nat
import Mathlib.Order.Interval.Finset.Nat

namespace ConnectForge.Data

/-! A range of offsets cut into runs of one size, all of them full but the
last. -/

/-- The runs that make up the range, each with the offset it starts at and how
many offsets it holds. -/
inductive Tiles (size : Nat) : Nat → List (Nat × Nat) → Nat → Prop where
  | none {start} : Tiles size start [] start
  | last {start length} (positive : 0 < length) (within : length ≤ size) :
      Tiles size start [(start, length)] (start + length)
  | full {start second rest next} (more : Tiles size (start + size) (second :: rest) next) :
      Tiles size start ((start, size) :: second :: rest) next

namespace Tiles

variable {size start next base length : Nat} {tiles front : List (Nat × Nat)}

theorem total (tiled : Tiles size start tiles next) : start + (tiles.map Prod.snd).sum = next := by
  induction tiled with
  | none => rfl
  | last positive within => simp
  | full more ih =>
      rw [← ih, List.map_cons, List.sum_cons, Nat.add_assoc]

theorem head {tile : Nat × Nat} (tiled : Tiles size start (tile :: tiles) next) : tile.1 = start := by
  cases tiled <;> rfl

theorem le (tiled : Tiles size start tiles next) : start ≤ next := by
  rw [← tiled.total]
  exact Nat.le_add_right _ _

theorem lt (tiled : Tiles size start tiles next) (nonempty : tiles ≠ []) : start < next := by
  induction tiled with
  | none => contradiction
  | last positive within => omega
  | full more ih => exact Nat.lt_of_le_of_lt (Nat.le_add_right _ _) (ih (List.cons_ne_nil _ _))

theorem ends (tiled : Tiles size start (front ++ [(base, length)]) next) :
    base = start + front.length * size ∧ next = base + length ∧ 0 < length ∧ length ≤ size := by
  induction front generalizing start with
  | nil =>
      cases tiled with
      | last positive within => exact ⟨by simp, rfl, positive, within⟩
  | cons head rest ih =>
      obtain ⟨second, others, shape⟩ : ∃ second others, rest ++ [(base, length)] = second :: others :=
        List.exists_cons_of_ne_nil (by simp)
      rw [List.cons_append, shape] at tiled
      cases tiled with
      | full more =>
          rw [← shape] at more
          obtain ⟨here, there⟩ := ih more
          refine ⟨?_, there⟩
          rw [here, List.length_cons, Nat.succ_mul]
          omega

theorem extend (tiled : Tiles size start (front ++ [(base, length)]) next) (short : length < size) :
    Tiles size start (front ++ [(base, length + 1)]) (next + 1) := by
  induction front generalizing start with
  | nil =>
      cases tiled with
      | last positive within => exact .last (Nat.succ_pos length) short
  | cons head rest ih =>
      obtain ⟨second, others, shape⟩ : ∃ second others, rest ++ [(base, length)] = second :: others :=
        List.exists_cons_of_ne_nil (by simp)
      obtain ⟨second', others', shape'⟩ :
          ∃ second others, rest ++ [(base, length + 1)] = second :: others :=
        List.exists_cons_of_ne_nil (by simp)
      rw [List.cons_append, shape] at tiled
      cases tiled with
      | full more =>
          rw [← shape] at more
          have longer := ih more
          rw [shape'] at longer
          rw [List.cons_append, shape']
          exact .full longer

theorem begin (positive : 0 < size) (tiled : Tiles size start (front ++ [(base, size)]) next) :
    Tiles size start (front ++ [(base, size)] ++ [(next, 1)]) (next + 1) := by
  induction front generalizing start with
  | nil =>
      cases tiled with
      | last _ _ => exact .full (.last Nat.one_pos positive)
  | cons head rest ih =>
      obtain ⟨second, others, shape⟩ : ∃ second others, rest ++ [(base, size)] = second :: others :=
        List.exists_cons_of_ne_nil (by simp)
      rw [List.cons_append, shape] at tiled
      cases tiled with
      | full more =>
          rw [← shape] at more
          have longer := ih more
          rw [shape, List.cons_append] at longer
          rw [List.cons_append, shape, List.cons_append, List.cons_append]
          exact .full longer

theorem drop (tiled : Tiles size start tiles next) {count : Nat} (fewer : count < tiles.length) :
    Tiles size (start + count * size) (tiles.drop count) next := by
  induction count generalizing start tiles with
  | zero =>
      rw [Nat.zero_mul, Nat.add_zero, List.drop_zero]
      exact tiled
  | succ count ih =>
      cases tiled with
      | none => simp at fewer
      | last positive within => simp at fewer
      | full more =>
          have later := ih more (by simpa using fewer)
          rw [Nat.succ_mul, ← Nat.add_assoc, Nat.add_right_comm]
          exact later

theorem above (tiled : Tiles size start tiles next) : ∀ tile ∈ tiles, start ≤ tile.1 := by
  induction tiled with
  | none => exact List.forall_mem_nil _
  | last _ _ => exact List.forall_mem_singleton.mpr (Nat.le_refl _)
  | full more ih =>
      intro tile member
      rcases List.mem_cons.mp member with rfl | later
      · exact Nat.le_refl _
      · exact Nat.le_trans (Nat.le_add_right _ _) (ih tile later)

theorem ascending (positive : 0 < size) (tiled : Tiles size start tiles next) :
    tiles.Pairwise fun left right => left.1 < right.1 := by
  induction tiled with
  | none => exact .nil
  | last _ _ => exact List.pairwise_singleton _ _
  | full more ih =>
      refine List.pairwise_cons.mpr ⟨?_, ih⟩
      intro tile member
      have bound := more.above tile member
      dsimp only
      omega

end Tiles

/-- How many runs of the given size, each starting at a multiple of it, meet the
range. -/
def blocks (size start next : Nat) : Nat := ((Finset.Ico start next).image (· / size)).card

theorem blocks_empty {size start next : Nat} (empty : next ≤ start) : blocks size start next = 0 := by
  rw [blocks, Finset.Ico_eq_empty (Nat.not_lt.mpr empty), Finset.image_empty, Finset.card_empty]

theorem blocks_mono {size first start next : Nat} (earlier : first ≤ start) :
    blocks size start next ≤ blocks size first next :=
  Finset.card_le_card (Finset.image_subset_image (Finset.Ico_subset_Ico_left earlier))

theorem blocks_eq {size start next : Nat} (positive : 0 < size) (below : start < next) :
    blocks size start next = (next - 1) / size + 1 - start / size := by
  have image : (Finset.Ico start next).image (· / size) =
      Finset.Ico (start / size) ((next - 1) / size + 1) := by
    ext block
    simp only [Finset.mem_image, Finset.mem_Ico]
    constructor
    · rintro ⟨offset, ⟨above, under⟩, rfl⟩
      exact ⟨Nat.div_le_div_right above,
        Nat.lt_succ_of_le (Nat.div_le_div_right (Nat.le_pred_of_lt under))⟩
    · rintro ⟨above, under⟩
      -- The first offset of the block, or the first of the range when that is later.
      refine ⟨max start (block * size), ?_, ?_⟩
      · have reached : block * size ≤ next - 1 := (Nat.le_div_iff_mul_le positive).mp (Nat.le_of_lt_succ under)
        omega
      · rcases Nat.le_total start (block * size) with early | late
        · rw [Nat.max_eq_right early, Nat.mul_div_cancel _ positive]
        · rw [Nat.max_eq_left late]
          exact Nat.le_antisymm above ((Nat.le_div_iff_mul_le positive).mpr late)
  rw [blocks, image, Nat.card_Ico]

/-- The runs of a range that starts at a multiple of their size are the blocks
it meets. -/
theorem Tiles.length {size start next : Nat} {tiles : List (Nat × Nat)} (positive : 0 < size)
    (aligned : size ∣ start) (tiled : Tiles size start tiles next) :
    tiles.length = blocks size start next := by
  rcases List.eq_nil_or_concat' tiles with rfl | ⟨front, ⟨base, length⟩, rfl⟩
  · cases tiled
    exact (blocks_empty (Nat.le_refl _)).symm
  · obtain ⟨rfl, rfl, filled, within⟩ := tiled.ends
    obtain ⟨first, rfl⟩ := aligned
    rw [blocks_eq positive (by omega), Nat.mul_div_cancel_left first positive]
    have last : (size * first + front.length * size + length - 1) / size = first + front.length := by
      apply Nat.div_eq_of_lt_le
      · rw [Nat.add_mul, Nat.mul_comm first]
        omega
      · rw [Nat.succ_mul, Nat.add_mul, Nat.mul_comm first]
        omega
    rw [last, List.length_append, List.length_singleton]
    omega

end ConnectForge.Data
