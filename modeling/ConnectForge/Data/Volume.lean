import Mathlib.Logic.Function.Basic

namespace ConnectForge.Data

/-! Files under names.  A file that was opened stays the same file whatever
becomes of its name. -/

structure Volume (Name Byte : Type) where
  names : Name → Option Nat
  contents : Nat → List Byte
  next : Nat
  bounded : ∀ {name file}, names name = some file → file < next
  distinct : ∀ {first second file}, names first = some file → names second = some file → first = second

variable {Name Byte : Type}

namespace Volume

def empty : Volume Name Byte where
  names := fun _ => none
  contents := fun _ => []
  next := 0
  bounded := nofun
  distinct := nofun

def file? (volume : Volume Name Byte) (name : Name) : Option (List Byte) :=
  (volume.names name).map volume.contents

/-- Writes over the start of a file. -/
def write (volume : Volume Name Byte) (file : Nat) (bytes : List Byte) : Volume Name Byte where
  names := volume.names
  contents := Function.update volume.contents file (bytes ++ (volume.contents file).drop bytes.length)
  next := volume.next
  bounded := volume.bounded
  distinct := volume.distinct

def truncate (volume : Volume Name Byte) (file : Nat) : Volume Name Byte where
  names := volume.names
  contents := Function.update volume.contents file []
  next := volume.next
  bounded := volume.bounded
  distinct := volume.distinct

@[simp] theorem names_write (volume : Volume Name Byte) (file : Nat) (bytes : List Byte) :
    (volume.write file bytes).names = volume.names := rfl

@[simp] theorem contents_write (volume : Volume Name Byte) (file : Nat) (bytes : List Byte) :
    (volume.write file bytes).contents =
      Function.update volume.contents file (bytes ++ (volume.contents file).drop bytes.length) := rfl

variable [DecidableEq Name]

/-- Makes an empty file under a name that had none. -/
def make (volume : Volume Name Byte) (name : Name) : Volume Name Byte where
  names := Function.update volume.names name (some volume.next)
  contents := Function.update volume.contents volume.next []
  next := volume.next + 1
  bounded := by
    intro other file found
    rw [Function.update_apply] at found
    split at found
    · cases found
      omega
    · have below := volume.bounded found
      omega
  distinct := by
    intro first second file left right
    rw [Function.update_apply] at left right
    split at left
    · cases left
      split at right
      · simp_all
      · exact absurd (volume.bounded right) (Nat.lt_irrefl _)
    · split at right
      · cases right
        exact absurd (volume.bounded left) (Nat.lt_irrefl _)
      · exact volume.distinct left right

/-- Opens a name for writing.  The file there is emptied, or one is made. -/
def create (volume : Volume Name Byte) (name : Name) : Nat × Volume Name Byte :=
  match volume.names name with
  | some file => (file, volume.truncate file)
  | none => (volume.next, volume.make name)

/-- Gives the file of one name to another, in place of the file there. -/
def move (volume : Volume Name Byte) (source target : Name) : Volume Name Byte where
  names := Function.update (Function.update volume.names source none) target (volume.names source)
  contents := volume.contents
  next := volume.next
  bounded := by
    intro name file found
    rw [Function.update_apply, Function.update_apply] at found
    split at found
    · exact volume.bounded found
    · split at found
      · cases found
      · exact volume.bounded found
  distinct := by
    intro first second file left right
    rw [Function.update_apply, Function.update_apply] at left right
    by_cases here : first = target
    · by_cases there : second = target
      · exact here.trans there.symm
      · rw [if_pos here] at left
        rw [if_neg there] at right
        split at right
        · cases right
        · rename_i other
          exact absurd (volume.distinct right left) other
    · rw [if_neg here] at left
      split at left
      · cases left
      · rename_i other
        by_cases there : second = target
        · rw [if_pos there] at right
          exact absurd (volume.distinct left right) other
        · rw [if_neg there] at right
          split at right
          · cases right
          · exact volume.distinct left right

/-- `none` when there is no file under the first name. -/
def rename (volume : Volume Name Byte) (source target : Name) : Option (Volume Name Byte) :=
  match volume.names source with
  | some _ => some (volume.move source target)
  | none => none

/-- Writes a file from its start, after it was opened and emptied. -/
def overwrite (volume : Volume Name Byte) (name : Name) (bytes : List Byte) : Volume Name Byte :=
  (volume.create name).2.write (volume.create name).1 bytes

variable {volume : Volume Name Byte} {name other source target : Name} {file : Nat}

@[simp] theorem names_move (volume : Volume Name Byte) (source target : Name) :
    (volume.move source target).names =
      Function.update (Function.update volume.names source none) target (volume.names source) := rfl

@[simp] theorem contents_move (volume : Volume Name Byte) (source target : Name) :
    (volume.move source target).contents = volume.contents := rfl

theorem names_create (volume : Volume Name Byte) (name : Name) :
    (volume.create name).2.names = Function.update volume.names name (some (volume.create name).1) := by
  unfold create
  split
  · rename_i file found
    exact (Function.update_eq_self_iff.mpr found.symm).symm
  · rfl

theorem contents_create (volume : Volume Name Byte) (name : Name) :
    (volume.create name).2.contents = Function.update volume.contents (volume.create name).1 [] := by
  unfold create
  split <;> rfl

theorem names_created (volume : Volume Name Byte) (name : Name) :
    (volume.create name).2.names name = some (volume.create name).1 := by
  rw [names_create, Function.update_self]

theorem contents_created (volume : Volume Name Byte) (name : Name) :
    (volume.create name).2.contents (volume.create name).1 = [] := by
  rw [contents_create, Function.update_self]

/-- The file opened is no other name's. -/
theorem create_apart (different : other ≠ name) (found : volume.names other = some file) :
    file ≠ (volume.create name).1 := by
  unfold create
  split
  · rename_i opened here
    rintro rfl
    exact different (volume.distinct found here)
  · exact Nat.ne_of_lt (volume.bounded found)

theorem file?_create (volume : Volume Name Byte) (name other : Name) :
    (volume.create name).2.file? other = if other = name then some [] else volume.file? other := by
  rw [file?, names_create, contents_create, Function.update_apply]
  by_cases same : other = name
  · rw [if_pos same, if_pos same, Option.map_some, Function.update_self]
  · rw [if_neg same, if_neg same, file?]
    cases found : volume.names other with
    | none => rfl
    | some file =>
        rw [Option.map_some, Option.map_some, Function.update_of_ne (create_apart same found)]

theorem file?_write (found : volume.names name = some file) (bytes : List Byte) (other : Name) :
    (volume.write file bytes).file? other =
      if other = name then some (bytes ++ (volume.contents file).drop bytes.length)
      else volume.file? other := by
  rw [file?, names_write, contents_write]
  by_cases same : other = name
  · rw [if_pos same, same, found, Option.map_some, Function.update_self]
  · rw [if_neg same, file?]
    cases there : volume.names other with
    | none => rfl
    | some known =>
        have apart : known ≠ file := by
          rintro rfl
          exact same (volume.distinct there found)
        rw [Option.map_some, Option.map_some, Function.update_of_ne apart]

theorem names_overwrite (volume : Volume Name Byte) (name : Name) (bytes : List Byte) :
    (volume.overwrite name bytes).names name = some (volume.create name).1 := volume.names_created name

theorem file?_overwrite (volume : Volume Name Byte) (name : Name) (bytes : List Byte) (other : Name) :
    (volume.overwrite name bytes).file? other =
      if other = name then some bytes else volume.file? other := by
  rw [overwrite, file?_write (volume.names_created name), contents_created, List.drop_nil,
    List.append_nil, file?_create]
  split <;> rfl

theorem file?_move (volume : Volume Name Byte) (source target other : Name) :
    (volume.move source target).file? other =
      if other = target then volume.file? source
      else if other = source then none else volume.file? other := by
  rw [file?, names_move, contents_move, Function.update_apply, Function.update_apply]
  split
  · rfl
  · split <;> rfl

theorem rename_found (found : volume.names source = some file) :
    volume.rename source target = some (volume.move source target) := by
  rw [rename, found]

end Volume

end ConnectForge.Data
