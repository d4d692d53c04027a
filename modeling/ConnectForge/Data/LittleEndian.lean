import Mathlib.Data.List.Basic
import Mathlib.Algebra.Order.Ring.Int

namespace ConnectForge.Data

/-! Fixed-width little-endian integers and bounds-checked slices. -/

/-- The `width` little-endian bytes of a number, discarding higher ones. -/
def leBytes : Nat → Nat → List UInt8
  | 0, _ => []
  | width + 1, value => UInt8.ofNat value :: leBytes width (value / 256)

def ofLeBytes : List UInt8 → Nat
  | [] => 0
  | byte :: rest => byte.toNat + 256 * ofLeBytes rest

@[simp] theorem length_leBytes (width value : Nat) : (leBytes width value).length = width := by
  induction width generalizing value with
  | zero => rfl
  | succ width ih => simp only [leBytes, List.length_cons, ih]

theorem ofLeBytes_leBytes (width value : Nat) :
    ofLeBytes (leBytes width value) = value % 256 ^ width := by
  induction width generalizing value with
  | zero => simp only [leBytes, ofLeBytes, Nat.pow_zero, Nat.mod_one]
  | succ width ih =>
      have byte : (UInt8.ofNat value).toNat = value % 256 := by
        simp only [UInt8.toNat_ofNat', Nat.reducePow]
      rw [leBytes, ofLeBytes, ih, byte, Nat.pow_succ', Nat.mod_mul]

theorem ofLeBytes_lt (bytes : List UInt8) : ofLeBytes bytes < 256 ^ bytes.length := by
  induction bytes with
  | nil => decide
  | cons byte rest ih =>
      have small := byte.toNat_lt
      rw [ofLeBytes, List.length_cons, Nat.pow_succ']
      omega

def i64ToLe (value : Int) : List UInt8 := leBytes 8 (value % 2 ^ 64).toNat

def i64OfLe (bytes : List UInt8) : Int :=
  if ofLeBytes bytes < 2 ^ 63 then (ofLeBytes bytes : Int) else (ofLeBytes bytes : Int) - 2 ^ 64

@[simp] theorem length_i64ToLe (value : Int) : (i64ToLe value).length = 8 :=
  length_leBytes 8 _

theorem i64OfLe_i64ToLe {value : Int} (lower : -2 ^ 63 ≤ value) (upper : value < 2 ^ 63) :
    i64OfLe (i64ToLe value) = value := by
  have stored : ofLeBytes (i64ToLe value) = (value % 2 ^ 64).toNat := by
    rw [i64ToLe, ofLeBytes_leBytes]
    apply Nat.mod_eq_of_lt
    omega
  rw [i64OfLe, stored]
  split <;> omega

section Slice

variable {α : Type*}

/-- `data.get(start..start + length)`: present only when the whole range lies
inside the data. -/
def slice (data : List α) (start length : Nat) : Option (List α) :=
  if start + length ≤ data.length then some ((data.drop start).take length) else none

theorem slice_eq_some {data values : List α} {start length : Nat}
    (found : slice data start length = some values) :
    start + length ≤ data.length ∧ values.length = length := by
  unfold slice at found
  split at found
  · rename_i within
    cases found
    refine ⟨within, ?_⟩
    rw [List.length_take, List.length_drop]
    omega
  · contradiction

theorem slice_append {data values : List α} {start length : Nat} (more : List α)
    (found : slice data start length = some values) :
    slice (data ++ more) start length = some values := by
  have within := (slice_eq_some found).1
  have longer : start + length ≤ (data ++ more).length := by
    rw [List.length_append]
    omega
  rw [← found, slice, slice, if_pos within, if_pos longer, List.drop_append_of_le_length (by omega),
    List.take_append_of_le_length (by rw [List.length_drop]; omega)]

theorem slice_take {data values : List α} {start length size : Nat}
    (found : slice data start length = some values) (within : start + length ≤ size) :
    slice (data.take size) start length = some values := by
  have bound := (slice_eq_some found).1
  have inside : start + length ≤ (data.take size).length := by
    rw [List.length_take]
    omega
  rw [← found, slice, slice, if_pos bound, if_pos inside, List.drop_take, List.take_take,
    Nat.min_eq_left (by omega)]

@[simp] theorem slice_front (front data : List α) (start length : Nat) :
    slice (front ++ data) (front.length + start) length = slice data start length := by
  simp only [slice, List.length_append, List.drop_length_add_append, Nat.add_assoc,
    Nat.add_le_add_iff_left]

theorem slice_prefix (values rest : List α) : slice (values ++ rest) 0 values.length = some values := by
  simp only [slice, Nat.zero_add, List.length_append, Nat.le_add_right, ↓reduceIte, List.drop_zero,
    List.take_left]

/-- The form in which fields of a frame are read: a field standing right behind
the part already consumed. -/
theorem slice_field {data : List α} {start length : Nat} (front values rest : List α)
    (layout : data = front ++ values ++ rest) (position : start = front.length)
    (size : length = values.length) : slice data start length = some values := by
  subst layout position size
  have shifted := slice_front front (values ++ rest) 0 values.length
  rw [Nat.add_zero, slice_prefix] at shifted
  rw [List.append_assoc, shifted]

end Slice

end ConnectForge.Data
