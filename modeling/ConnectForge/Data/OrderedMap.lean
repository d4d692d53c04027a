import Mathlib.Algebra.Order.BigOperators.Group.List
import Mathlib.Algebra.Order.Ring.Nat
import Mathlib.Data.List.Forall2
import Mathlib.Order.Lattice
import Mathlib.Algebra.GroupWithZero.Nat

namespace ConnectForge.Data

section Lists

/-! Lists related element by element. -/

variable {α β γ : Type} {relation : α → β → Prop} {left : List α} {right : List β}

theorem forall₂_getElem? (related : List.Forall₂ relation left right) (index : Nat) :
    (left[index]? = none ∧ right[index]? = none) ∨
    ∃ first second, left[index]? = some first ∧ right[index]? = some second ∧
      relation first second := by
  induction related generalizing index with
  | nil => exact .inl ⟨rfl, rfl⟩
  | cons here _ ih =>
      cases index with
      | zero => exact .inr ⟨_, _, rfl, rfl, here⟩
      | succ index => exact ih index

theorem forall₂_set (related : List.Forall₂ relation left right) (index : Nat) {first : α}
    {second : β} (values : relation first second) :
    List.Forall₂ relation (left.set index first) (right.set index second) := by
  induction related generalizing index with
  | nil => exact .nil
  | cons here rest ih =>
      cases index with
      | zero => exact .cons values rest
      | succ index => exact .cons here (ih index)

theorem forall₂_map_eq (related : List.Forall₂ relation left right) {first : α → γ} {second : β → γ}
    (agree : ∀ {left right}, relation left right → first left = second right) :
    left.map first = right.map second := by
  induction related with
  | nil => rfl
  | cons here _ ih => rw [List.map_cons, List.map_cons, ih, agree here]

theorem forall₂_all (related : List.Forall₂ relation left right) {holds : α → Prop}
    {holds' : β → Prop} (kept : ∀ {left right}, relation left right → holds left → holds' right)
    (all : ∀ value ∈ left, holds value) : ∀ value ∈ right, holds' value := by
  induction related with
  | nil => exact List.forall_mem_nil _
  | cons here _ ih =>
      obtain ⟨first, rest⟩ := List.forall_mem_cons.mp all
      exact List.forall_mem_cons.mpr ⟨kept here first, ih rest⟩

theorem forall₂_along {onward : α → γ → Prop} {moved : γ → β → Prop} {later : List γ}
    (related : List.Forall₂ relation left right) (steps : List.Forall₂ onward left later)
    (both : ∀ {first second third}, relation first second → onward first third → moved third second) :
    List.Forall₂ moved later right := by
  induction related generalizing later with
  | nil =>
      cases steps
      exact .nil
  | cons here _ ih =>
      cases steps with
      | cons step rest => exact .cons (both here step) (ih rest)

theorem sum_set (values : List α) {index : Nat} {old : α} (found : values[index]? = some old)
    (new : α) (count : α → Nat) :
    ((values.set index new).map count).sum + count old = (values.map count).sum + count new := by
  induction values generalizing index with
  | nil => simp at found
  | cons first rest ih =>
      cases index with
      | zero =>
          cases found
          simp only [List.set_cons_zero, List.map_cons, List.sum_cons]
          omega
      | succ index =>
          have inner := ih (show rest[index]? = some old from found)
          simp only [List.set_cons_succ, List.map_cons, List.sum_cons]
          omega

theorem sum_map_eq_iff {values : List α} {first second : α → Nat}
    (below : ∀ value ∈ values, first value ≤ second value) :
    (values.map first).sum = (values.map second).sum ↔ ∀ value ∈ values, first value = second value := by
  induction values with
  | nil => simp
  | cons value rest ih =>
      obtain ⟨here, later⟩ := List.forall_mem_cons.mp below
      have sums : (rest.map first).sum ≤ (rest.map second).sum := List.sum_le_sum later
      rw [List.forall_mem_cons, ← ih later, List.map_cons, List.map_cons, List.sum_cons, List.sum_cons]
      omega

end Lists

/-! Maps that keep their entries in the order of the keys. -/

variable {κ ν μ : Type} [LinearOrder κ]

/-- Put a value under a key, in the place of an earlier one if there is any. -/
def insertEntry (key : κ) (value : ν) : List (κ × ν) → List (κ × ν)
  | [] => [(key, value)]
  | (other, kept) :: rest =>
      if key < other then (key, value) :: (other, kept) :: rest
      else if key = other then (key, value) :: rest
      else (other, kept) :: insertEntry key value rest

def findEntry (key : κ) : List (κ × ν) → Option ν
  | [] => none
  | (other, value) :: rest => if key = other then some value else findEntry key rest

theorem mem_insertEntry {key : κ} {value : ν} {entries : List (κ × ν)} {entry : κ × ν}
    (member : entry ∈ insertEntry key value entries) : entry = (key, value) ∨ entry ∈ entries := by
  induction entries with
  | nil => exact .inl (List.mem_singleton.mp member)
  | cons first rest ih =>
      unfold insertEntry at member
      split at member
      · exact List.mem_cons.mp member
      · split at member
        · rcases List.mem_cons.mp member with here | later
          · exact .inl here
          · exact .inr (List.mem_cons_of_mem _ later)
        · rcases List.mem_cons.mp member with here | later
          · exact .inr (by simp [here])
          · rcases ih later with new | old
            · exact .inl new
            · exact .inr (List.mem_cons_of_mem _ old)

theorem sorted_insertEntry (key : κ) (value : ν) {entries : List (κ × ν)}
    (sorted : entries.Pairwise fun left right => left.1 < right.1) :
    (insertEntry key value entries).Pairwise fun left right => left.1 < right.1 := by
  induction entries with
  | nil => exact List.pairwise_singleton _ _
  | cons first rest ih =>
      obtain ⟨below, tail⟩ := List.pairwise_cons.mp sorted
      unfold insertEntry
      split
      · rename_i smaller
        refine List.pairwise_cons.mpr ⟨?_, sorted⟩
        intro entry member
        rcases List.mem_cons.mp member with rfl | later
        · exact smaller
        · exact lt_trans smaller (below entry later)
      · split
        · rename_i same
          exact List.pairwise_cons.mpr ⟨fun entry member => same ▸ below entry member, tail⟩
        · rename_i larger different
          refine List.pairwise_cons.mpr ⟨?_, ih tail⟩
          intro entry member
          rcases mem_insertEntry member with rfl | old
          · exact lt_of_le_of_ne (not_lt.mp larger) fun equal => different equal.symm
          · exact below entry old

theorem mem_of_findEntry {key : κ} {value : ν} {entries : List (κ × ν)}
    (found : findEntry key entries = some value) : (key, value) ∈ entries := by
  induction entries with
  | nil => cases found
  | cons first rest ih =>
      unfold findEntry at found
      split at found
      · rename_i same
        cases found
        simp [same]
      · exact List.mem_cons_of_mem _ (ih found)

theorem findEntry_insertEntry (key wanted : κ) (value : ν) (entries : List (κ × ν)) :
    findEntry wanted (insertEntry key value entries) =
      if wanted = key then some value else findEntry wanted entries := by
  induction entries with
  | nil => rfl
  | cons first rest ih =>
      unfold insertEntry
      split
      · rfl
      · split
        · rename_i same
          rw [findEntry, findEntry, ← same]
          split <;> rfl
        · rename_i different
          rw [findEntry, findEntry, ih]
          split
          · rename_i here
            rw [if_neg fun equal => different (equal.symm.trans here)]
          · rfl

/-- A `BTreeMap`. -/
structure OrderedMap (κ ν : Type) [LinearOrder κ] where
  entries : List (κ × ν)
  sorted : entries.Pairwise fun left right => left.1 < right.1

namespace OrderedMap

def empty : OrderedMap κ ν := ⟨[], .nil⟩

def find? (map : OrderedMap κ ν) (key : κ) : Option ν := findEntry key map.entries

def values (map : OrderedMap κ ν) : List ν := map.entries.map Prod.snd

def insert (map : OrderedMap κ ν) (key : κ) (value : ν) : OrderedMap κ ν where
  entries := insertEntry key value map.entries
  sorted := sorted_insertEntry key value map.sorted

theorem find?_insert (map : OrderedMap κ ν) (key wanted : κ) (value : ν) :
    (map.insert key value).find? wanted = if wanted = key then some value else map.find? wanted :=
  findEntry_insertEntry key wanted value map.entries

theorem values_insert_insert (key : κ) (old new : ν) :
    ((empty.insert key old).insert key new).values = [new] := by
  simp [values, insert, empty, insertEntry]

theorem length_insert_le (map : OrderedMap κ ν) (key : κ) (value : ν) :
    (map.insert key value).entries.length ≤ map.entries.length + 1 := by
  change (insertEntry key value map.entries).length ≤ _
  induction map.entries with
  | nil => exact Nat.le_refl 1
  | cons first rest ih =>
      unfold insertEntry
      split
      · exact Nat.le_refl _
      · split
        · exact Nat.le_succ _
        · exact Nat.succ_le_succ ih

theorem sum_insert (map : OrderedMap κ ν) {key : κ} {old : ν} (found : map.find? key = some old)
    (new : ν) (count : ν → Nat) :
    ((map.insert key new).values.map count).sum + count old =
      (map.values.map count).sum + count new := by
  obtain ⟨entries, sorted⟩ := map
  change (((insertEntry key new entries).map Prod.snd).map count).sum + count old =
    ((entries.map Prod.snd).map count).sum + count new
  replace found : findEntry key entries = some old := found
  induction entries with
  | nil => cases found
  | cons first rest ih =>
      obtain ⟨below, tail⟩ := List.pairwise_cons.mp sorted
      unfold findEntry at found
      unfold insertEntry
      split at found
      · rename_i here
        cases found
        rw [if_neg (by rw [here]; exact lt_irrefl _), if_pos here]
        simp only [List.map_cons, List.sum_cons]
        omega
      · rename_i different
        -- The entries are sorted, so a key that is further down is above the first one.
        have above : ¬ key < first.1 := not_lt_of_gt (below (key, old) (mem_of_findEntry found))
        rw [if_neg above, if_neg different]
        have inner := ih tail found
        simp only [List.map_cons, List.sum_cons]
        omega

theorem findEntry_eq_none {key : κ} {entries : List (κ × ν)} (below : ∀ entry ∈ entries, key < entry.1) :
    findEntry key entries = none := by
  cases found : findEntry key entries with
  | none => rfl
  | some value => exact absurd (below _ (mem_of_findEntry found)) (lt_irrefl key)

theorem ext_find? {left right : OrderedMap κ ν} (same : ∀ key, left.find? key = right.find? key) :
    left = right := by
  obtain ⟨first, firstSorted⟩ := left
  obtain ⟨second, secondSorted⟩ := right
  replace same : ∀ key, findEntry key first = findEntry key second := same
  suffices equal : first = second by
    subst equal
    rfl
  induction first generalizing second with
  | nil =>
      cases second with
      | nil => rfl
      | cons entry rest =>
          have missing := same entry.1
          simp [findEntry] at missing
  | cons entry rest ih =>
      cases second with
      | nil =>
          have missing := same entry.1
          simp [findEntry] at missing
      | cons other more =>
          obtain ⟨key, value⟩ := entry
          obtain ⟨otherKey, otherValue⟩ := other
          obtain ⟨restAbove, restSorted⟩ := List.pairwise_cons.mp firstSorted
          obtain ⟨moreAbove, moreSorted⟩ := List.pairwise_cons.mp secondSorted
          -- Both maps begin with their smallest key, and each has the other's.
          have notBelow : ¬ key < otherKey := by
            intro smaller
            have found := same key
            rw [findEntry, if_pos rfl, findEntry, if_neg smaller.ne,
              findEntry_eq_none fun entry member => smaller.trans (moreAbove entry member)] at found
            cases found
          have notAbove : ¬ otherKey < key := by
            intro smaller
            have found := same otherKey
            rw [findEntry, if_neg smaller.ne, findEntry, if_pos rfl,
              findEntry_eq_none fun entry member => smaller.trans (restAbove entry member)] at found
            cases found
          have keys : key = otherKey := le_antisymm (not_lt.mp notAbove) (not_lt.mp notBelow)
          subst keys
          have values := same key
          rw [findEntry, if_pos rfl, findEntry, if_pos rfl] at values
          have tails : ∀ wanted, findEntry wanted rest = findEntry wanted more := by
            intro wanted
            by_cases here : wanted = key
            · rw [here, findEntry_eq_none restAbove, findEntry_eq_none moreAbove]
            · have found := same wanted
              rwa [findEntry, if_neg here, findEntry, if_neg here] at found
          rw [Option.some.inj values, ih restSorted more moreSorted tails]

def All (holds : ν → Prop) (map : OrderedMap κ ν) : Prop := ∀ entry ∈ map.entries, holds entry.2

theorem All.empty {holds : ν → Prop} : (OrderedMap.empty : OrderedMap κ ν).All holds :=
  List.forall_mem_nil _

theorem All.find? {holds : ν → Prop} {map : OrderedMap κ ν} (all : map.All holds) {key : κ}
    {value : ν} (found : map.find? key = some value) : holds value :=
  all (key, value) (mem_of_findEntry found)

theorem All.insert {holds : ν → Prop} {map : OrderedMap κ ν} (all : map.All holds) (key : κ)
    {value : ν} (new : holds value) : (map.insert key value).All holds := by
  intro entry member
  rcases mem_insertEntry member with rfl | old
  · exact new
  · exact all entry old

theorem All.imp {holds weaker : ν → Prop} {map : OrderedMap κ ν} (all : map.All holds)
    (weakens : ∀ {value}, holds value → weaker value) : map.All weaker :=
  fun entry member => weakens (all entry member)

/-- Every value is filed under its own label. -/
def Filed (label : ν → κ) (map : OrderedMap κ ν) : Prop :=
  ∀ entry ∈ map.entries, label entry.2 = entry.1

theorem Filed.empty {label : ν → κ} : (OrderedMap.empty : OrderedMap κ ν).Filed label :=
  List.forall_mem_nil _

theorem Filed.insert {label : ν → κ} {map : OrderedMap κ ν} (filed : map.Filed label) {key : κ}
    {value : ν} (labelled : label value = key) : (map.insert key value).Filed label := by
  intro entry member
  rcases mem_insertEntry member with rfl | old
  · exact labelled
  · exact filed entry old

theorem Filed.find? {label : ν → κ} {map : OrderedMap κ ν} (filed : map.Filed label) {key : κ}
    {value : ν} (found : map.find? key = some value) : label value = key :=
  filed (key, value) (mem_of_findEntry found)

theorem Filed.find?_values {label : ν → κ} {map : OrderedMap κ ν} (filed : map.Filed label) (key : κ) :
    map.values.find? (fun value => label value = key) = map.find? key := by
  unfold OrderedMap.values OrderedMap.find?
  unfold Filed at filed
  generalize map.entries = entries at filed
  induction entries with
  | nil => rfl
  | cons first rest ih =>
      obtain ⟨here, later⟩ := List.forall_mem_cons.mp filed
      rw [List.map_cons, List.find?_cons, findEntry, here]
      by_cases same : first.1 = key
      · rw [if_pos same.symm]
        simp [same]
      · rw [if_neg (Ne.symm same)]
        simp only [same, decide_false]
        exact ih later

def Related (relation : ν → μ → Prop) (left : OrderedMap κ ν) (right : OrderedMap κ μ) : Prop :=
  List.Forall₂ (fun first second => first.1 = second.1 ∧ relation first.2 second.2)
    left.entries right.entries

section Related

variable {relation : ν → μ → Prop} {left : OrderedMap κ ν} {right : OrderedMap κ μ}

theorem Related.empty : Related relation (OrderedMap.empty : OrderedMap κ ν) OrderedMap.empty := .nil

theorem Related.find? (related : Related relation left right) (key : κ) :
    (left.find? key = none ∧ right.find? key = none) ∨
    ∃ first second, left.find? key = some first ∧ right.find? key = some second ∧
      relation first second := by
  unfold Related at related
  unfold OrderedMap.find?
  generalize left.entries = leftEntries at related ⊢
  generalize right.entries = rightEntries at related ⊢
  induction related with
  | nil => exact .inl ⟨rfl, rfl⟩
  | @cons first second _ _ both _ ih =>
      obtain ⟨same, values⟩ := both
      simp only [findEntry, ← same]
      split
      · exact .inr ⟨_, _, rfl, rfl, values⟩
      · exact ih

theorem Related.all (related : Related relation left right) {holds : ν → Prop} {holds' : μ → Prop}
    (all : left.All holds)
    (keeps : ∀ {first second}, relation first second → holds first → holds' second) :
    right.All holds' := by
  unfold Related at related
  unfold All at all ⊢
  generalize left.entries = leftEntries at related all
  generalize right.entries = rightEntries at related ⊢
  induction related with
  | nil => simp
  | cons both _ ih =>
      intro entry member
      rcases List.mem_cons.mp member with rfl | later
      · exact keeps both.2 (all _ List.mem_cons_self)
      · exact ih (fun other old => all other (List.mem_cons_of_mem _ old)) entry later

theorem Related.insert (related : Related relation left right) (key : κ) {first : ν} {second : μ}
    (values : relation first second) :
    Related relation (left.insert key first) (right.insert key second) := by
  unfold Related at related
  change List.Forall₂ _ (insertEntry key first left.entries) (insertEntry key second right.entries)
  generalize left.entries = leftEntries at related ⊢
  generalize right.entries = rightEntries at related ⊢
  induction related with
  | nil => exact .cons ⟨rfl, values⟩ .nil
  | @cons leftEntry rightEntry _ _ both rest ih =>
      obtain ⟨same, entries⟩ := both
      simp only [insertEntry, ← same]
      split
      · exact .cons ⟨rfl, values⟩ (.cons ⟨rfl, entries⟩ rest)
      · split
        · exact .cons ⟨rfl, values⟩ rest
        · exact .cons ⟨rfl, entries⟩ ih

theorem Related.imp {weaker : ν → μ → Prop} (related : Related relation left right)
    (implies : ∀ {first second}, relation first second → weaker first second) :
    Related weaker left right :=
  List.Forall₂.imp (fun _ _ entries => ⟨entries.1, implies entries.2⟩) related

theorem Related.along {ξ : Type} {onward : ν → ξ → Prop} {moved : ξ → μ → Prop} {later : OrderedMap κ ξ}
    (related : Related relation left right) (steps : Related onward left later)
    (both : ∀ {first second third}, relation first second → onward first third → moved third second) :
    Related moved later right :=
  forall₂_along related steps fun here step => ⟨step.1.symm.trans here.1, both here.2 step.2⟩

theorem Related.length_eq (related : Related relation left right) :
    left.entries.length = right.entries.length :=
  List.Forall₂.length_eq related

theorem Related.map_values {α : Type} (related : Related relation left right) {first : ν → α}
    {second : μ → α} (agree : ∀ {left right}, relation left right → first left = second right) :
    left.values.map first = right.values.map second := by
  rw [values, values, List.map_map, List.map_map]
  exact forall₂_map_eq related fun both => agree both.2

end Related

end OrderedMap

end ConnectForge.Data
