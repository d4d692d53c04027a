import Mathlib.Data.List.Infix
import Mathlib.Data.List.Induction

namespace ConnectForge.Data

/-! Paths, and trees of directories addressed by them. -/

abbrev Pathname := List String

section Paths

def resolveStep (resolved : Pathname) (component : String) : Pathname :=
  if component = "." then resolved
  else if component = ".." then resolved.dropLast
  else resolved ++ [component]

/-- Where a path leads: `.` stays, and `..` goes to the parent. -/
def resolve (path : Pathname) : Pathname := path.foldl resolveStep []

def Descends (component : String) : Prop := component ≠ "." ∧ component ≠ ".."

instance (component : String) : Decidable (Descends component) := inferInstanceAs (Decidable (_ ∧ _))

theorem resolve_concat (path : Pathname) {component : String} (descends : Descends component) :
    resolve (path ++ [component]) = resolve path ++ [component] := by
  rw [resolve, List.foldl_append]
  change resolveStep (resolve path) component = _
  rw [resolveStep, if_neg descends.1, if_neg descends.2]

theorem prefix_siblings {base path : Pathname} {left right : String}
    (underLeft : base ++ [left] <+: path) (underRight : base ++ [right] <+: path) : left = right := by
  obtain ⟨rest, rfl⟩ := underLeft
  obtain ⟨other, same⟩ := underRight
  rw [List.append_assoc, List.append_assoc, List.append_cancel_left_eq] at same
  exact (List.cons.inj same).1.symm

theorem not_prefix_self (base : Pathname) (component : String) : ¬ base ++ [component] <+: base := by
  intro shorter
  have length := shorter.length_le
  rw [List.length_append, List.length_singleton] at length
  omega

end Paths

/-- The directories that exist, with what each of them contains. -/
abbrev PathTree (δ : Type) := Pathname → Option δ

namespace PathTree

variable {δ : Type} (fresh : δ) (tree : PathTree δ) {path : Pathname}

def put (path : Pathname) (contents : δ) : PathTree δ := fun other => if other = path then some contents else tree other

def ensure (paths : List Pathname) : PathTree δ :=
  fun other => if other ∈ paths then some ((tree other).getD fresh) else tree other

@[simp] theorem put_self (contents : δ) : tree.put path contents path = some contents := if_pos rfl

@[simp] theorem put_other {other : Pathname} (different : other ≠ path) (contents : δ) :
    tree.put path contents other = tree other := if_neg different

variable {tree}

theorem put_eq {contents : δ} (here : tree path = some contents) : tree.put path contents = tree := by
  funext other
  by_cases same : other = path
  · rw [same, put_self, here]
  · rw [put_other tree same]

theorem ensure_eq {paths : List Pathname} (present : ∀ path ∈ paths, tree path ≠ none) :
    tree.ensure fresh paths = tree := by
  funext other
  unfold ensure
  split
  · rename_i member
    obtain ⟨contents, here⟩ := Option.ne_none_iff_exists'.mp (present other member)
    rw [here]
    rfl
  · rfl

theorem ensure_of_not_mem {paths : List Pathname} (absent : path ∉ paths) :
    tree.ensure fresh paths path = tree path := if_neg absent

theorem ensure_of_mem {paths : List Pathname} (member : path ∈ paths) :
    tree.ensure fresh paths path = some ((tree path).getD fresh) := if_pos member

theorem put_put (tree : PathTree δ) (path : Pathname) (first second : δ) :
    (tree.put path first).put path second = tree.put path second := by
  funext other
  by_cases same : other = path
  · rw [same, put_self, put_self]
  · rw [put_other _ same, put_other _ same, put_other _ same]

theorem ensure_new (absent : tree path = none) : tree.ensure fresh [path] = tree.put path fresh := by
  funext other
  by_cases same : other = path
  · rw [same, put_self, ensure_of_mem fresh List.mem_cons_self, absent]
    rfl
  · rw [put_other _ same, ensure_of_not_mem fresh (by simpa using same)]

theorem ensure_append (first second : List Pathname) :
    (tree.ensure fresh first).ensure fresh second = tree.ensure fresh (first ++ second) := by
  funext other
  by_cases inFirst : other ∈ first <;> by_cases inSecond : other ∈ second <;>
    simp [ensure, inFirst, inSecond]

theorem ensure_inits (present : ∀ other, other <+: path → other ≠ path → tree other ≠ none) :
    tree.ensure fresh path.inits = tree.ensure fresh [path] := by
  funext other
  unfold ensure
  by_cases last : other = path
  · rw [if_pos (by rw [last]; simp), if_pos (by simp [last])]
  · rw [if_neg (show other ∉ [path] by simpa using last)]
    split
    · rename_i member
      obtain ⟨contents, here⟩ :=
        Option.ne_none_iff_exists'.mp (present other ((List.mem_inits _ _).mp member) last)
      rw [here]
      rfl
    · rfl

end PathTree

end ConnectForge.Data
