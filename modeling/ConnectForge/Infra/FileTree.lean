import Mathlib.Data.List.Dedup
import ConnectForge.Data.Tree
import ConnectForge.Infra.Disk

namespace ConnectForge.Infra

open Data

/-! The file system around a store, without I/O errors. -/

def Directory.put (dir : Directory) (name : String) (bytes : Bytes) : Directory :=
  if name ∈ dir.names then dir.modify name fun _ => bytes
  else { dir with files := dir.files ++ [(name, bytes)] }

theorem Directory.isSome_read? (dir : Directory) (name : String) :
    (dir.read? name).isSome ↔ name ∈ dir.names := by
  rw [Directory.read?, List.lookup_isSome_iff]
  simp [Directory.names]

theorem Directory.mem_put {dir : Directory} {name other : String} {bytes : Bytes}
    (member : other ∈ (dir.put name bytes).names) : other = name ∨ other ∈ dir.names := by
  unfold Directory.put at member
  split at member
  · rw [Directory.names_modify] at member
    exact .inr member
  · rw [Directory.names, List.map_append, List.mem_append, List.map_singleton, List.mem_singleton] at member
    exact member.symm

abbrev FileTree := PathTree Directory

namespace FileTree

def file? (tree : FileTree) (path : Pathname) : Option Bytes :=
  match path.getLast? with
  | none => none
  | some name => (tree path.dropLast).bind fun dir => dir.read? name

def isFile (tree : FileTree) (path : Pathname) : Bool := (tree.file? path).isSome

/-- `std::fs::create_dir_all`. -/
def createDirAll (tree : FileTree) (path : Pathname) : Except IoError FileTree :=
  let target := resolve path
  if tree.isFile target then .error "File exists (os error 17)"
  else if target.inits.any tree.isFile then .error "Not a directory (os error 20)"
  else .ok (tree.ensure .empty target.inits)

/-- `std::fs::write`. -/
def write (tree : FileTree) (path : Pathname) (bytes : Bytes) : Except IoError FileTree :=
  let target := resolve path
  if (tree target).isSome then .error "Is a directory (os error 21)"
  else
    match target.getLast?, tree target.dropLast with
    | some name, some dir => .ok (tree.put target.dropLast (dir.put name bytes))
    | _, _ => .error "No such file or directory (os error 2)"

/-- `std::fs::read`. -/
def read (tree : FileTree) (path : Pathname) : Except IoError Bytes :=
  let target := resolve path
  if (tree target).isSome then .error "Is a directory (os error 21)"
  else
    match tree.file? target with
    | none => .error "No such file or directory (os error 2)"
    | some bytes => .ok bytes

/-- `Path::exists`. -/
def exists? (tree : FileTree) (path : Pathname) : Bool :=
  (tree (resolve path)).isSome || tree.isFile (resolve path)

/-- What `read_dir` may return: the entries of each directory, in an order of its
own. -/
structure Lists (tree : FileTree) (listing : Pathname → List String) : Prop where
  nodup : ∀ path, (listing path).Nodup
  mem : ∀ path name, name ∈ listing path ↔
    tree (resolve path ++ [name]) ≠ none ∨ tree.isFile (resolve path ++ [name]) = true

variable {tree : FileTree} {path : Pathname} {name : String}

theorem file?_concat (tree : FileTree) (path : Pathname) (name : String) :
    tree.file? (path ++ [name]) = (tree path).bind fun dir => dir.read? name := by
  simp [file?]

theorem isFile_ensure (tree : FileTree) (paths : List Pathname) (path : Pathname) :
    isFile (tree.ensure .empty paths) path = tree.isFile path := by
  rcases List.eq_nil_or_concat' path with rfl | ⟨front, last, rfl⟩
  · rfl
  · rw [isFile, isFile, file?_concat, file?_concat, PathTree.ensure]
    split
    · cases tree front <;> rfl
    · rfl

theorem createDirAll_eq {after : FileTree} (made : tree.createDirAll path = .ok after) :
    after = tree.ensure .empty (resolve path).inits := by
  unfold createDirAll at made
  dsimp only at made
  split at made
  · cases made
  · split at made
    · cases made
    · cases made
      rfl

theorem createDirAll_ok (clear : ∀ other, other <+: resolve path → tree.isFile other = false)
    (present : ∀ other, other <+: resolve path → other ≠ resolve path → tree other ≠ none) :
    tree.createDirAll path = .ok (tree.ensure .empty [resolve path]) := by
  have unobstructed : (resolve path).inits.any tree.isFile = false := by
    rw [List.any_eq_false]
    intro other member
    rw [clear other ((List.mem_inits _ _).mp member)]
    exact Bool.false_ne_true
  rw [createDirAll, clear _ List.prefix_rfl, unobstructed, PathTree.ensure_inits .empty present]
  rfl

theorem write_ok {dir : Directory} (descends : Descends name) (parent : tree (resolve path) = some dir)
    (absent : tree (resolve path ++ [name]) = none) (bytes : Bytes) :
    tree.write (path ++ [name]) bytes = .ok (tree.put (resolve path) (dir.put name bytes)) := by
  simp [write, resolve_concat path descends, absent, parent]

def Finite (tree : FileTree) : Prop := ∃ support : List Pathname, ∀ path, tree path ≠ none → path ∈ support

theorem Finite.put (finite : tree.Finite) (path : Pathname) (dir : Directory) :
    FileTree.Finite (tree.put path dir) := by
  obtain ⟨support, covers⟩ := finite
  refine ⟨path :: support, ?_⟩
  intro other present
  by_cases same : other = path
  · rw [same]
    exact List.mem_cons_self
  · rw [PathTree.put_other _ same] at present
    exact List.mem_cons_of_mem _ (covers other present)

theorem Finite.ensure (finite : tree.Finite) (paths : List Pathname) :
    FileTree.Finite (tree.ensure .empty paths) := by
  obtain ⟨support, covers⟩ := finite
  refine ⟨paths ++ support, ?_⟩
  intro other present
  by_cases member : other ∈ paths
  · exact List.mem_append_left _ member
  · rw [PathTree.ensure_of_not_mem _ member] at present
    exact List.mem_append_right _ (covers other present)

theorem Finite.listed (finite : tree.Finite) : ∃ listing, tree.Lists listing := by
  obtain ⟨support, covers⟩ := finite
  let entries : Pathname → List String := fun path =>
    (support.filterMap List.getLast?).filter (fun name => (tree (path ++ [name])).isSome) ++
      ((tree path).getD .empty).names
  refine ⟨fun path => (entries (resolve path)).dedup, fun path => List.nodup_dedup _, ?_⟩
  intro path name
  rw [List.mem_dedup, List.mem_append, isFile, file?_concat]
  refine or_congr ?_ ?_
  · rw [List.mem_filter, ← Option.isSome_iff_ne_none]
    refine and_iff_right_of_imp fun present => ?_
    refine List.mem_filterMap.mpr ⟨_, covers _ (Option.isSome_iff_ne_none.mp present), ?_⟩
    exact List.getLast?_concat
  · cases tree (resolve path) with
    | none => simp [Directory.empty, Directory.names]
    | some dir => rw [Option.getD_some, Option.bind_some, dir.isSome_read?]

end FileTree

end ConnectForge.Infra
