import ConnectForge.Types.Units

namespace ConnectForge.Infra

/-! The files a partition lives in, and the writes that can go wrong on them.

A directory keeps its files in creation order.  Nothing below relies on that
order: recovery is given the names in whatever order `read_dir` lists them. -/

/-- The text of a `std::io::Error`. -/
abbrev IoError := String

/-- One injected I/O error: how many bytes of the request still reached the
file, and the error reported. -/
structure Fault where
  written : Nat
  reason : IoError
deriving Repr, DecidableEq

structure Directory where
  files : List (String × Bytes)
  /-- What the files deleted so far contained, oldest first. -/
  removed : List (String × Bytes)
deriving DecidableEq

namespace Directory

def empty : Directory := { files := [], removed := [] }

def names (dir : Directory) : List String := dir.files.map Prod.fst

def read? (dir : Directory) (name : String) : Option Bytes := dir.files.lookup name

/-- Rewrite the contents of one file; a name that is not there (an unlinked
file with an open handle) leaves the directory alone. -/
def modify (dir : Directory) (name : String) (change : Bytes → Bytes) : Directory :=
  { dir with files := dir.files.map fun file =>
      if file.1 = name then (file.1, change file.2) else file }

/-- `OpenOptions::new().create(true)`: an existing file is kept as it is. -/
def touch (dir : Directory) (name : String) : Directory :=
  if name ∈ dir.names then dir else { dir with files := dir.files ++ [(name, [])] }

def unlink (dir : Directory) (name : String) : Directory :=
  { files := dir.files.filter fun file => file.1 ≠ name
    removed := dir.removed ++ dir.files.filter fun file => file.1 = name }

theorem names_modify (dir : Directory) (name : String) (change : Bytes → Bytes) :
    (dir.modify name change).names = dir.names := by
  rw [names, modify, List.map_map, names]
  refine List.map_congr_left fun file _ => ?_
  simp only [Function.comp_apply]
  split <;> rfl

theorem read?_modify (dir : Directory) (name : String) (change : Bytes → Bytes) :
    (dir.modify name change).read? name = (dir.read? name).map change := by
  unfold read? modify
  induction dir.files with
  | nil => rfl
  | cons file rest ih =>
      obtain ⟨other, bytes⟩ := file
      by_cases same : other = name
      · simp [same]
      · have different : (name == other) = false := by simpa using fun equal => same equal.symm
        simp only [List.map_cons, same, ↓reduceIte, List.lookup_cons, different]
        exact ih

variable {dir : Directory} {name other : String}

theorem read?_modify_ne (different : other ≠ name) (change : Bytes → Bytes) :
    (dir.modify name change).read? other = dir.read? other := by
  unfold read? modify
  induction dir.files with
  | nil => rfl
  | cons file rest ih =>
      by_cases same : file.1 = name
      · have skipped : (other == file.1) = false := by rw [same]; simpa using different
        rw [List.map_cons, if_pos same, List.lookup_cons, List.lookup_cons, skipped]
        exact ih
      · rw [List.map_cons, if_neg same, List.lookup_cons, List.lookup_cons]
        split
        · rfl
        · exact ih

theorem names_touch (absent : name ∉ dir.names) : (dir.touch name).names = dir.names ++ [name] := by
  rw [touch, if_neg absent, names, List.map_append]
  rfl

theorem read?_touch (absent : name ∉ dir.names) : (dir.touch name).read? name = some [] := by
  have missing : dir.files.lookup name = none := by
    rw [List.lookup_eq_none_iff]
    intro file member
    have listed : file.1 ∈ dir.names := List.mem_map_of_mem member
    simpa using fun same : name = file.1 => absent (same ▸ listed)
  rw [touch, if_neg absent, read?, List.lookup_append, missing, Option.none_or]
  exact List.lookup_cons_self

theorem read?_touch_ne (different : other ≠ name) : (dir.touch name).read? other = dir.read? other := by
  unfold touch
  split
  · rfl
  · have skipped : (other == name) = false := by simpa using different
    rw [read?, List.lookup_append, List.lookup_cons, skipped]
    exact Option.or_none

theorem names_unlink : (dir.unlink name).names = dir.names.filter (· ≠ name) := by
  rw [names, unlink, names, List.filter_map]
  rfl

theorem read?_unlink_ne (different : other ≠ name) :
    (dir.unlink name).read? other = dir.read? other := by
  unfold read? unlink
  induction dir.files with
  | nil => rfl
  | cons file rest ih =>
      rw [List.filter_cons]
      by_cases same : file.1 = name
      · have skipped : (other == file.1) = false := by rw [same]; simpa using different
        rw [if_neg (by simpa using same), List.lookup_cons, skipped]
        exact ih
      · rw [if_pos (by simpa using same), List.lookup_cons, List.lookup_cons]
        split
        · rfl
        · exact ih

end Directory

/-- A partition directory together with the errors its next operations will
meet: each operation takes the head of the schedule, and a schedule that has
run out stands for operations that succeed. -/
structure Disk where
  dir : Directory
  faults : List (Option Fault)
deriving DecidableEq

namespace Disk

def nextFault (disk : Disk) : Option Fault := disk.faults.head?.join

def afterFault (disk : Disk) : Disk := { disk with faults := disk.faults.tail }

/-- Open a file for appending, creating it if it does not exist. -/
def openAppend (disk : Disk) (name : String) : Except IoError Unit × Disk :=
  match disk.nextFault with
  | some fault => (.error fault.reason, disk.afterFault)
  | none => (.ok (), { disk.afterFault with dir := disk.dir.touch name })

/-- The disk after an operation that added bytes to a file. -/
def appended (disk : Disk) (name : String) (bytes : Bytes) : Disk :=
  { disk.afterFault with dir := disk.dir.modify name (· ++ bytes) }

/-- Append bytes to a file.  A failing write may have appended a prefix; the
bytes that did not reach the file are returned. -/
def write (disk : Disk) (name : String) (bytes : Bytes) : Except IoError Unit × Bytes × Disk :=
  match disk.nextFault with
  | some fault =>
      (.error fault.reason, bytes.drop fault.written, disk.appended name (bytes.take fault.written))
  | none => (.ok (), [], disk.appended name bytes)

/-- `std::fs::remove_file`. -/
def removeFile (disk : Disk) (name : String) : Except IoError Unit × Disk :=
  match disk.nextFault with
  | some fault => (.error fault.reason, disk.afterFault)
  | none =>
      if name ∈ disk.dir.names then
        (.ok (), { disk.afterFault with dir := disk.dir.unlink name })
      else (.error "No such file or directory (os error 2)", disk.afterFault)

theorem nextFault_nil {disk : Disk} (quiet : disk.faults = []) : disk.nextFault = none := by
  rw [nextFault, quiet]
  rfl

theorem afterFault_nil {disk : Disk} (quiet : disk.faults = []) : disk.afterFault.faults = [] := by
  rw [afterFault, quiet]
  rfl

theorem write_ok {disk : Disk} (clear : disk.nextFault = none) (name : String) (bytes : Bytes) :
    disk.write name bytes = (.ok (), [], disk.appended name bytes) := by
  simp only [write, clear]

theorem write_fault {disk : Disk} {fault : Fault} (next : disk.nextFault = some fault)
    (name : String) (bytes : Bytes) :
    disk.write name bytes =
      (.error fault.reason, bytes.drop fault.written,
        disk.appended name (bytes.take fault.written)) := by
  simp only [write, next]

end Disk

/-- `std::io::BufWriter` over a file opened for appending. -/
structure BufWriter where
  file : String
  buffer : Bytes
deriving DecidableEq

namespace BufWriter

/-- The default capacity of a `BufWriter`. -/
def capacity : Nat := 8 * 1024

def spareCapacity (writer : BufWriter) : Nat := capacity - writer.buffer.length

def new (file : String) : BufWriter := { file, buffer := [] }

/-- Write the buffered bytes to the file; those that did not get there stay
buffered. -/
def flushBuf (writer : BufWriter) (disk : Disk) : Except IoError Unit × BufWriter × Disk :=
  if writer.buffer.isEmpty then (.ok (), writer, disk)
  else
    match disk.write writer.file writer.buffer with
    | (result, unwritten, disk) => (result, { writer with buffer := unwritten }, disk)

/-- Buffer the bytes if there is room for them; otherwise make room first, and
pass a request as large as the buffer straight to the file. -/
def writeAll (writer : BufWriter) (bytes : Bytes) (disk : Disk) :
    Except IoError Unit × BufWriter × Disk :=
  if bytes.length < writer.spareCapacity then
    (.ok (), { writer with buffer := writer.buffer ++ bytes }, disk)
  else
    match (if writer.spareCapacity < bytes.length then writer.flushBuf disk
      else (.ok (), writer, disk)) with
    | (.error reason, writer, disk) => (.error reason, writer, disk)
    | (.ok (), writer, disk) =>
        if capacity ≤ bytes.length then
          match disk.write writer.file bytes with
          | (result, _, disk) => (result, writer, disk)
        else (.ok (), { writer with buffer := writer.buffer ++ bytes }, disk)

def flush (writer : BufWriter) (disk : Disk) : Except IoError Unit × BufWriter × Disk :=
  writer.flushBuf disk

/-- Dropping a writer flushes what it still buffers, and a failure of that is
ignored. -/
def drop (writer : BufWriter) (disk : Disk) : Disk := (writer.flushBuf disk).2.2

@[simp] theorem drop_new (file : String) (disk : Disk) : (new file).drop disk = disk := rfl

theorem flush_new (file : String) (disk : Disk) :
    (new file).flush disk = (.ok (), new file, disk) := rfl

theorem flush_buffered {bytes : Bytes} (nonempty : bytes ≠ []) (file : String) (disk : Disk) :
    (BufWriter.mk file bytes).flush disk =
      ((disk.write file bytes).1, { file, buffer := (disk.write file bytes).2.1 },
        (disk.write file bytes).2.2) := by
  have filled : bytes.isEmpty = false := by simpa using nonempty
  simp only [flush, flushBuf, filled, Bool.false_eq_true, ↓reduceIte]

theorem writeAll_new_small {bytes : Bytes} (small : bytes.length < capacity) (file : String)
    (disk : Disk) : (new file).writeAll bytes disk = (.ok (), { file, buffer := bytes }, disk) := by
  have fits : bytes.length < (new file).spareCapacity := small
  simp only [writeAll, fits, ↓reduceIte]
  rfl

theorem writeAll_new_large {bytes : Bytes} (large : capacity ≤ bytes.length) (file : String)
    (disk : Disk) :
    (new file).writeAll bytes disk =
      ((disk.write file bytes).1, new file, (disk.write file bytes).2.2) := by
  have overfull : ¬ bytes.length < (new file).spareCapacity := Nat.not_lt.mpr large
  have drained : (if (new file).spareCapacity < bytes.length then (new file).flushBuf disk
      else (.ok (), new file, disk)) = (.ok (), new file, disk) := by
    split <;> rfl
  simp only [writeAll, overfull, drained, large, ↓reduceIte]
  rfl

end BufWriter

/-- The write of a frame fails and leaves less than the frame behind: it bypasses
the buffer, and not all of it is in the file. -/
def Fault.Cuts (fault : Fault) (frame : Bytes) : Prop :=
  BufWriter.capacity ≤ frame.length ∧ fault.written < frame.length

end ConnectForge.Infra
