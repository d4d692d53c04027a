import Mathlib.Data.List.Induction
import Mathlib.Data.Set.Function

namespace ConnectForge.Data

/-! Values saved one after the other, each under a key. -/

variable {α β κ ι : Type} [DecidableEq κ] [DecidableEq ι]

def lastUnder (key : α → κ) (value : α → β) (items : List α) (wanted : κ) : Option β :=
  items.foldl (fun found item => if key item = wanted then some (value item) else found) none

@[simp] theorem lastUnder_nil (key : α → κ) (value : α → β) (wanted : κ) :
    lastUnder key value [] wanted = none := rfl

@[simp] theorem lastUnder_snoc (key : α → κ) (value : α → β) (items : List α) (item : α)
    (wanted : κ) :
    lastUnder key value (items ++ [item]) wanted =
      if key item = wanted then some (value item) else lastUnder key value items wanted := by
  rw [lastUnder, List.foldl_append]
  rfl

/-- Saving under an encoded key is the same as saving under the key itself, as
long as the encoding tells the keys in use apart. -/
theorem lastUnder_encoded {key : α → κ} {encode : κ → ι} {keys : Set κ}
    (distinct : Set.InjOn encode keys) (value : α → β) {items : List α}
    (used : ∀ item ∈ items, key item ∈ keys) {wanted : κ} (known : wanted ∈ keys) :
    lastUnder (fun item => encode (key item)) value items (encode wanted) =
      lastUnder key value items wanted := by
  induction items using List.reverseRecOn with
  | nil => rfl
  | append_singleton items item ih =>
      have here := used item (by simp)
      have same : encode (key item) = encode wanted ↔ key item = wanted :=
        ⟨fun equal => distinct here known equal, congrArg encode⟩
      rw [lastUnder_snoc, lastUnder_snoc, ih fun other member => used other (by simp [member])]
      simp only [same]

theorem split_last {separator : α} {before before' after after' : List α}
    (absent : separator ∉ after) (absent' : separator ∉ after')
    (same : before ++ separator :: after = before' ++ separator :: after') :
    before = before' ∧ after = after' := by
  have reversed := congrArg List.reverse same
  simp only [List.reverse_append, List.reverse_cons, List.append_assoc, List.singleton_append] at reversed
  have absentReversed : separator ∉ after.reverse := by simpa using absent
  have absentReversed' : separator ∉ after'.reverse := by simpa using absent'
  rcases List.append_eq_append_iff.mp reversed with ⟨middle, longer, rest⟩ | ⟨middle, longer, rest⟩
  · cases middle with
    | nil =>
        simp only [List.append_nil, List.nil_append, List.cons.injEq, true_and] at longer rest
        exact ⟨List.reverse_inj.mp rest, (List.reverse_inj.mp longer).symm⟩
    | cons first middle =>
        cases (List.cons.inj rest).1
        exact absurd (by simp [longer]) absentReversed'
  · cases middle with
    | nil =>
        simp only [List.append_nil, List.nil_append, List.cons.injEq, true_and] at longer rest
        exact ⟨(List.reverse_inj.mp rest).symm, List.reverse_inj.mp longer⟩
    | cons first middle =>
        cases (List.cons.inj rest).1
        exact absurd (by simp [longer]) absentReversed

section Upsert

/-! A list with one value under each key, in the order in which the keys came. -/

/-- Put a value in the place of the one under its key, or at the end. -/
def upsert (key : α → κ) (value : α) : List α → List α
  | [] => [value]
  | first :: rest => if key first = key value then value :: rest else first :: upsert key value rest

variable {key : α → κ} {values : List α} {value : α}

theorem find?_upsert (wanted : κ) :
    (upsert key value values).find? (fun other => key other = wanted) =
      if key value = wanted then some value else values.find? fun other => key other = wanted := by
  induction values with
  | nil => by_cases same : key value = wanted <;> simp [upsert, same]
  | cons first rest ih =>
      by_cases here : key first = key value
      · by_cases same : key value = wanted <;> simp [upsert, here, same]
      · by_cases same : key value = wanted
        · have other : key first ≠ wanted := fun equal => here (equal.trans same.symm)
          simp [upsert, other, ih, same]
        · rw [upsert, if_neg here, if_neg same, List.find?_cons, List.find?_cons, ih, if_neg same]

theorem map_upsert : (upsert key value values).map key =
    if key value ∈ values.map key then values.map key else values.map key ++ [key value] := by
  induction values with
  | nil => simp [upsert]
  | cons first rest ih =>
      by_cases here : key first = key value
      · simp [upsert, here]
      · have apart : key value ≠ key first := Ne.symm here
        by_cases there : key value ∈ rest.map key <;> simp_all [upsert]

def upserts (key : α → κ) (values : List α) : List α :=
  values.foldl (fun kept value => upsert key value kept) []

@[simp] theorem upserts_snoc (values : List α) (value : α) :
    upserts key (values ++ [value]) = upsert key value (upserts key values) := by
  simp [upserts]

/-- The keys are there once, in the order in which they first came. -/
theorem map_upserts (values : List α) : (upserts key values).map key = (values.map key).eraseDups := by
  induction values using List.reverseRecOn with
  | nil => simp [upserts]
  | append_singleton values value ih =>
      rw [upserts_snoc, map_upsert, ih, List.map_append, List.eraseDups_append]
      simp only [List.mem_eraseDups, List.map_cons, List.map_nil]
      by_cases known : key value ∈ values.map key
      · simp only [List.removeAll, known, ↓reduceIte, List.filter_cons, List.elem_eq_mem, decide_true,
          Bool.not_true, Bool.false_eq_true, List.filter_nil, List.eraseDups_nil, List.append_nil]
      · simp only [List.removeAll, known, ↓reduceIte, List.filter_cons, List.elem_eq_mem, decide_false,
          Bool.not_false, List.filter_nil, List.eraseDups_cons, List.eraseDups_nil]

/-- Under each key there is the value that came last. -/
theorem find?_upserts (values : List α) (wanted : κ) :
    (upserts key values).find? (fun other => key other = wanted) = lastUnder key id values wanted := by
  induction values using List.reverseRecOn with
  | nil => simp [upserts]
  | append_singleton values value ih =>
      rw [upserts_snoc, find?_upsert, ih, lastUnder_snoc]
      simp

end Upsert

end ConnectForge.Data
