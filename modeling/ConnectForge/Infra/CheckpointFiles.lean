import ConnectForge.Data.Volume
import ConnectForge.Infra.Checkpoint
import ConnectForge.Interaction.Program

namespace ConnectForge.Infra

open Data Interaction

/-! Checkpoint files call by call, with what can come between two calls. -/

/-- A `std::io::Error`: whether its kind is `NotFound`, and its text. -/
structure FileError where
  notFound : Bool
  text : IoError

def FileError.missing : FileError := ⟨true, "No such file or directory (os error 2)"⟩

/-- The encoding is a call so that a run shows which saves have begun. -/
inductive FileCall where
  | toVec (offset : Nat)
  | createDirAll (path : String)
  | create (path : String)
  | writeAll (file : Nat) (bytes : Bytes)
  | rename (source target : String)
  | openFile (path : String)
  | readToEnd (file : Nat)

@[reducible] def FileCall.Answer : FileCall → Type
  | toVec _ => Except String Bytes
  | createDirAll _ => Except FileError Unit
  | create _ => Except FileError Nat
  | writeAll _ _ => Except FileError Unit
  | rename _ _ => Except FileError Unit
  | openFile _ => Except FileError Nat
  | readToEnd _ => Except FileError Bytes

abbrev FileProgram := Program FileCall FileCall.Answer

/-- `tokio::fs::write`: the file is emptied, and then written. -/
def writeFile (path : String) (bytes : Bytes) : FileProgram (Except FileError Unit) := do
  match ← Program.ask (FileCall.create path) with
  | .error failure => return .error failure
  | .ok file => Program.ask (FileCall.writeAll file bytes)

/-- `tokio::fs::read`. -/
def readFile (path : String) : FileProgram (Except FileError Bytes) := do
  match ← Program.ask (FileCall.openFile path) with
  | .error failure => return .error failure
  | .ok file => Program.ask (FileCall.readToEnd file)

/-- A `FileCheckpointStore`, without its files. -/
structure CheckpointRoot where
  root : String

namespace CheckpointRoot

def openRoot (root : String) : FileProgram (Except PortError CheckpointRoot) := do
  match ← Program.ask (FileCall.createDirAll root) with
  | .error failure => return .error (.transient ("create checkpoint dir: " ++ failure.text))
  | .ok () => return .ok ⟨root⟩

def path (store : CheckpointRoot) (connector : ConnectorId) (topic : TopicName)
    (partition : Nat) : String :=
  store.root ++ "/" ++ FileCheckpointStore.fileName connector topic partition

def tmp (store : CheckpointRoot) (connector : ConnectorId) (topic : TopicName)
    (partition : Nat) : String :=
  store.root ++ "/" ++ withExtension (FileCheckpointStore.fileName connector topic partition) "json.tmp"

def load (json : OffsetJson) (store : CheckpointRoot) (connector : ConnectorId) (topic : TopicName)
    (partition : Nat) : FileProgram (Except PortError (Option Nat)) := do
  match ← readFile (store.path connector topic partition) with
  | .ok bytes =>
      match json.fromSlice bytes with
      | .ok offset => return .ok (some offset)
      | .error reason => return .error (.permanent ("decode checkpoint: " ++ reason))
  | .error failure =>
      if failure.notFound then return .ok none
      else return .error (.transient ("read checkpoint: " ++ failure.text))

def save (store : CheckpointRoot) (checkpoint : Checkpoint) : FileProgram (Except PortError Unit) := do
  let path := store.path checkpoint.connector checkpoint.topic checkpoint.partition
  match ← Program.ask (FileCall.toVec checkpoint.offset) with
  | .error reason => return .error (.permanent ("encode checkpoint: " ++ reason))
  | .ok bytes =>
      let tmp := store.tmp checkpoint.connector checkpoint.topic checkpoint.partition
      match ← writeFile tmp bytes with
      | .error failure => return .error (.transient ("write checkpoint: " ++ failure.text))
      | .ok () =>
          match ← Program.ask (FileCall.rename tmp path) with
          | .error failure => return .error (.transient ("commit checkpoint: " ++ failure.text))
          | .ok () => return .ok ()

end CheckpointRoot

/-- The files of a store, and the offsets that saves have begun with. -/
structure CheckpointFiles where
  volume : Volume String UInt8
  begun : List Nat

namespace CheckpointFiles

/-- The answers of a file system without I/O errors of its own. -/
def handle (json : OffsetJson) :
    (request : FileCall) → CheckpointFiles → request.Answer × CheckpointFiles
  | .toVec offset, files => (json.toVec offset, { files with begun := offset :: files.begun })
  | .createDirAll _, files => (.ok (), files)
  | .create path, files =>
      (.ok (files.volume.create path).1, { files with volume := (files.volume.create path).2 })
  | .writeAll file bytes, files => (.ok (), { files with volume := files.volume.write file bytes })
  | .rename source target, files =>
      match files.volume.rename source target with
      | some volume => (.ok (), { files with volume })
      | none => (.error .missing, files)
  | .openFile path, files =>
      match files.volume.names path with
      | some file => (.ok file, files)
      | none => (.error .missing, files)
  | .readToEnd file, files => (.ok (files.volume.contents file), files)

def Answers (json : OffsetJson) (request : FileCall) (files : CheckpointFiles) (answer : request.Answer)
    (after : CheckpointFiles) : Prop := handle json request files = (answer, after)

section Answers

variable {files : CheckpointFiles} {file : Nat} {path source target : String}

theorem handle_opened (json : OffsetJson) (found : files.volume.names path = some file) :
    handle json (.openFile path) files = (.ok file, files) := by
  rw [handle, found]

theorem handle_absent (json : OffsetJson) (absent : files.volume.names path = none) :
    handle json (.openFile path) files = (.error .missing, files) := by
  rw [handle, absent]

theorem handle_renamed (json : OffsetJson) (found : files.volume.names source = some file) :
    handle json (.rename source target) files =
      (.ok (), { files with volume := files.volume.move source target }) := by
  rw [handle, Volume.rename_found found]

theorem handle_vanished (json : OffsetJson) (absent : files.volume.names source = none) :
    handle json (.rename source target) files = (.error .missing, files) := by
  rw [handle, Volume.rename, absent]

end Answers

/-- The files as a store finds them that is called once at a time. -/
def seenAt (files : CheckpointFiles) (store : CheckpointRoot) : FileCheckpointStore :=
  ⟨store.root, files.volume.file?⟩

/-- The checkpoint file of a position. -/
def pathAt (store : CheckpointRoot) (position : Position) : String :=
  store.path position.connector position.topic position.partition

/-- The file next to it that saves write to. -/
def tmpAt (store : CheckpointRoot) (position : Position) : String :=
  store.tmp position.connector position.topic position.partition

def loadAt (json : OffsetJson) (store : CheckpointRoot) (position : Position) :
    FileProgram (Except PortError (Option Nat)) :=
  store.load json position.connector position.topic position.partition

/-- What a load makes of a file. -/
def decoded (json : OffsetJson) : Option Bytes → Except PortError (Option Nat)
  | some bytes =>
      match json.fromSlice bytes with
      | .ok offset => .ok (some offset)
      | .error reason => .error (.permanent ("decode checkpoint: " ++ reason))
  | none => .ok none

variable {json : OffsetJson} {store : CheckpointRoot} {files : CheckpointFiles} {checkpoint : Checkpoint}

theorem path_ne_tmp (store : CheckpointRoot) (position : Position) :
    pathAt store position ≠ tmpAt store position := by
  rw [pathAt, tmpAt, CheckpointRoot.path, CheckpointRoot.tmp,
    FileCheckpointStore.withExtension_fileName]
  exact (FileCheckpointStore.openRoot store.root).path_ne_tmp (keyAt position) (keyAt position)

theorem run_load (json : OffsetJson) (store : CheckpointRoot) (files : CheckpointFiles)
    (position : Position) :
    (loadAt json store position).run (handle json) files =
      (decoded json (files.volume.file? (pathAt store position)), files) := by
  rw [loadAt, CheckpointRoot.load, readFile, Volume.file?]
  change _ = (decoded json ((files.volume.names (pathAt store position)).map _), files)
  cases found : files.volume.names (pathAt store position) with
  | none =>
      have missing : files.volume.names (store.path position.connector position.topic
        position.partition) = none := found
      simp [handle, missing, FileError.missing, decoded]
  | some file =>
      have there : files.volume.names (store.path position.connector position.topic
        position.partition) = some file := found
      simp only [handle, there, run_bind, run_call, run_done, Program.ask, Option.map_some, decoded]
      cases json.fromSlice (files.volume.contents file) <;> rfl

/-- What a save leaves that is not cut short. -/
def saved (store : CheckpointRoot) (checkpoint : Checkpoint) (bytes : Bytes) (files : CheckpointFiles) :
    CheckpointFiles where
  volume := (files.volume.overwrite (tmpAt store checkpoint.position) bytes).move
    (tmpAt store checkpoint.position) (pathAt store checkpoint.position)
  begun := checkpoint.offset :: files.begun

/-- The file a save has written is there to be renamed. -/
theorem handle_commit (json : OffsetJson) (store : CheckpointRoot) (checkpoint : Checkpoint)
    (bytes : Bytes) (files : CheckpointFiles) :
    handle json (.rename (store.tmp checkpoint.connector checkpoint.topic checkpoint.partition)
        (store.path checkpoint.connector checkpoint.topic checkpoint.partition))
      { volume := files.volume.overwrite
          (store.tmp checkpoint.connector checkpoint.topic checkpoint.partition) bytes
        begun := checkpoint.offset :: files.begun } =
      (.ok (), files.saved store checkpoint bytes) :=
  handle_renamed json (files.volume.names_overwrite _ bytes)

theorem run_save {bytes : Bytes} (encoded : json.toVec checkpoint.offset = .ok bytes) :
    (store.save checkpoint).run (handle json) files = (.ok (), files.saved store checkpoint bytes) := by
  have commits := handle_commit json store checkpoint bytes files
  rw [Volume.overwrite] at commits
  simp only [CheckpointRoot.save, writeFile, run_bind, Program.ask, run_call, run_done, handle.eq_1,
    handle.eq_3, handle.eq_4, encoded, commits, Program.pure_eq]

theorem seenAt_saved (store : CheckpointRoot) (checkpoint : Checkpoint) {bytes : Bytes}
    (encoded : json.toVec checkpoint.offset = .ok bytes) (files : CheckpointFiles) :
    (files.saved store checkpoint bytes).seenAt store =
      ((FileCheckpointStore.asStore json).save (files.seenAt store) checkpoint).2 := by
  have different := path_ne_tmp store checkpoint.position
  have renamed : (files.saved store checkpoint bytes).volume.file? = FileCheckpointStore.rename
      (Function.update files.volume.file? (tmpAt store checkpoint.position) (some bytes))
      (tmpAt store checkpoint.position) (pathAt store checkpoint.position) := by
    funext name
    rw [saved, Volume.file?_move, Volume.file?_overwrite, Volume.file?_overwrite, if_pos rfl]
    by_cases temporary : name = tmpAt store checkpoint.position
    · rw [FileCheckpointStore.rename, temporary, Function.update_self, if_neg different.symm, if_pos rfl]
    · rw [FileCheckpointStore.rename_written _ _ temporary, if_neg temporary, if_neg temporary]
  rw [seenAt, renamed]
  simp only [FileCheckpointStore.asStore, FileCheckpointStore.save, encoded]
  rfl

/-- Called once at a time, a store saves as `FileCheckpointStore.save` does. -/
theorem save_refines (json : OffsetJson) (store : CheckpointRoot) (checkpoint : Checkpoint)
    (files : CheckpointFiles) :
    ((store.save checkpoint).run (handle json) files).1 =
        ((FileCheckpointStore.asStore json).save (files.seenAt store) checkpoint).1 ∧
      ((store.save checkpoint).run (handle json) files).2.seenAt store =
        ((FileCheckpointStore.asStore json).save (files.seenAt store) checkpoint).2 := by
  cases encoded : json.toVec checkpoint.offset with
  | error reason =>
      simp only [CheckpointRoot.save, run_bind, Program.ask, run_call, run_done, handle, encoded,
        Program.pure_eq, FileCheckpointStore.asStore, FileCheckpointStore.save]
      exact ⟨trivial, rfl⟩
  | ok bytes =>
      rw [run_save encoded]
      refine ⟨?_, seenAt_saved store checkpoint encoded files⟩
      simp only [FileCheckpointStore.asStore, FileCheckpointStore.save, encoded]

/-- And it loads as `FileCheckpointStore.load` does. -/
theorem load_refines (json : OffsetJson) (store : CheckpointRoot) (files : CheckpointFiles)
    (position : Position) :
    (loadAt json store position).run (handle json) files =
      ((FileCheckpointStore.asStore json).loadAt (files.seenAt store) position, files) :=
  run_load json store files position

end CheckpointFiles

def mirrorPosition : Position := ⟨⟨"mirror", by decide⟩, ⟨"payments", by decide⟩, 0⟩

def mirrorCheckpoint (offset : Nat) : Checkpoint :=
  ⟨mirrorPosition.connector, mirrorPosition.topic, mirrorPosition.partition, offset⟩

end ConnectForge.Infra
