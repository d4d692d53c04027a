import ConnectForge.Infra.CheckpointFiles
import ConnectForge.Interaction.Tasks

namespace ConnectForge.Infra

open Data Interaction CheckpointFiles

/-! Saves and loads of one position that run at the same time. -/

/-- What a task returns: the result of a save or of a load. -/
inductive Finished where
  | saved (result : Except PortError Unit)
  | loaded (result : Except PortError (Option Nat))

def saving (store : CheckpointRoot) (checkpoint : Checkpoint) : FileProgram Finished := do
  return .saved (← store.save checkpoint)

def loading (json : OffsetJson) (store : CheckpointRoot) (position : Position) : FileProgram Finished := do
  return .loaded (← loadAt json store position)

/-- The tasks of one position. -/
def Concerns (json : OffsetJson) (store : CheckpointRoot) (position : Position)
    (program : FileProgram Finished) : Prop :=
  (∃ checkpoint : Checkpoint, checkpoint.position = position ∧ checkpoint.offset < u64Modulus ∧
    program = saving store checkpoint) ∨ program = loading json store position

/-- How far a task has come. -/
inductive Stage where
  | idle
  | encoded (bytes : Bytes)
  | emptied (file : Nat) (bytes : Bytes)
  | written (bytes : Bytes)
  | committed
  | opened (file : Nat)
  | loaded (bytes : Bytes)
  | missing
  | failed

namespace Stage

def note : Stage → (request : FileCall) → request.Answer → Stage
  | .idle, .toVec _, .ok bytes => .encoded bytes
  | .encoded bytes, .create _, .ok file => .emptied file bytes
  | .emptied _ bytes, .writeAll _ _, .ok () => .written bytes
  | .written _, .rename _ _, .ok () => .committed
  | .idle, .openFile _, .ok file => .opened file
  | .idle, .openFile _, .error failure => if failure.notFound then .missing else .failed
  | .opened _, .readToEnd _, .ok bytes => .loaded bytes
  | _, _, _ => .failed

def Permits (store : CheckpointRoot) (position : Position) : Stage → FileCall → Prop
  | .idle, .toVec offset => offset < u64Modulus
  | .idle, .openFile path => path = pathAt store position
  | .encoded _, .create path => path = tmpAt store position
  | .emptied file bytes, .writeAll other content => other = file ∧ content = bytes
  | .written _, .rename source target => source = tmpAt store position ∧ target = pathAt store position
  | .opened file, .readToEnd other => other = file
  | _, _ => False

def Ends (json : OffsetJson) : Finished → Stage → Prop
  | _, .failed => True
  | .saved result, .committed => result = .ok ()
  | .loaded result, .missing => result = .ok none
  | .loaded result, .loaded bytes => result = decoded json (some bytes)
  | _, _ => False

/-- The temporary file is this task's. -/
def Holds : Stage → Prop
  | .emptied _ _ => True
  | .written _ => True
  | _ => False

def Apart (left right : Stage) : Prop := ¬ (left.Holds ∧ right.Holds)

variable {json : OffsetJson} {store : CheckpointRoot} {position : Position}

theorem follows_saving (json : OffsetJson) (store : CheckpointRoot) {checkpoint : Checkpoint}
    (bounded : checkpoint.offset < u64Modulus) :
    (saving store checkpoint).Follows (Permits store checkpoint.position) note (Ends json) .idle := by
  refine follows_call bounded ?_
  rintro (reason | bytes)
  · trivial
  refine follows_call rfl ?_
  rintro (failure | file)
  · trivial
  refine follows_call ⟨rfl, rfl⟩ ?_
  rintro (failure | ⟨⟩)
  · trivial
  refine follows_call ⟨rfl, rfl⟩ ?_
  rintro (failure | ⟨⟩)
  · trivial
  · exact rfl

/-- A load of what is not there, or that fails. -/
theorem follows_unread (json : OffsetJson) (store : CheckpointRoot) (position : Position)
    (failure : FileError) {stage : Stage}
    (ended : stage = .failed ∨ failure.notFound = true ∧ stage = .missing) :
    ((if failure.notFound then Program.done (.ok none)
        else Program.done (.error (.transient ("read checkpoint: " ++ failure.text))) :
      FileProgram (Except PortError (Option Nat))) >>=
        fun result => Program.done (Finished.loaded result)).Follows (Permits store position) note
      (Ends json) stage := by
  rcases ended with rfl | ⟨found, rfl⟩
  · split <;> trivial
  · rw [if_pos found]
    exact rfl

theorem follows_loading (json : OffsetJson) (store : CheckpointRoot) (position : Position) :
    (loading json store position).Follows (Permits store position) note (Ends json) .idle := by
  refine follows_call rfl ?_
  rintro (failure | file)
  · refine follows_unread json store position failure ?_
    change (if failure.notFound then missing else failed) = failed ∨ _
    split
    · exact .inr ⟨‹_›, if_pos ‹_›⟩
    · exact .inl rfl
  refine follows_call rfl ?_
  rintro (failure | bytes)
  · exact follows_unread json store position failure (.inl rfl)
  · dsimp only [Program.bind]
    cases read : json.fromSlice bytes with
    | error reason =>
        change Except.error _ = decoded json (some bytes)
        rw [decoded, read]
    | ok offset =>
        change Except.ok _ = decoded json (some bytes)
        rw [decoded, read]

end Stage

/-- Bytes that decode to an offset a save has begun with. -/
def CheckpointFiles.Begun (json : OffsetJson) (files : CheckpointFiles) (bytes : Bytes) : Prop :=
  ∃ offset ∈ files.begun, json.fromSlice bytes = .ok offset

/-- The checkpoint file is not there, or one that a save wrote as a whole. -/
def CheckpointFiles.Whole (json : OffsetJson) (store : CheckpointRoot) (position : Position)
    (files : CheckpointFiles) : Prop :=
  ∀ bytes, files.volume.file? (pathAt store position) = some bytes → files.Begun json bytes

namespace Stage

/-- What a task knows of the files. -/
def Knows (json : OffsetJson) (store : CheckpointRoot) (position : Position) (files : CheckpointFiles) :
    Stage → Prop
  | .encoded bytes => files.Begun json bytes
  | .emptied file bytes => files.Begun json bytes ∧
      files.volume.names (tmpAt store position) = some file ∧ files.volume.contents file = []
  | .written bytes => files.Begun json bytes ∧ files.volume.file? (tmpAt store position) = some bytes
  | .opened file => files.Begun json (files.volume.contents file) ∧ file < files.volume.next ∧
      files.volume.names (tmpAt store position) ≠ some file
  | .loaded bytes => files.Begun json bytes
  | .failed => False
  | _ => True

/-- No save empties the temporary file of another. -/
def Undisturbed (files : CheckpointFiles) (_ : Stage) : FileCall → Prop
  | .create path => files.volume.names path = none
  | _ => True

variable {json : OffsetJson} {store : CheckpointRoot} {position : Position}
  {files after : CheckpointFiles} {stage : Stage}

/-- Only the temporary file may have changed, and no file took its name that was
there before. -/
structure Frame (store : CheckpointRoot) (position : Position) (files after : CheckpointFiles) : Prop where
  begun : files.begun ⊆ after.begun
  next : files.volume.next ≤ after.volume.next
  contents : ∀ file < files.volume.next, files.volume.names (tmpAt store position) ≠ some file →
    after.volume.contents file = files.volume.contents file
  tmp : ∀ file < files.volume.next, files.volume.names (tmpAt store position) ≠ some file →
    after.volume.names (tmpAt store position) ≠ some file

theorem begun_mono {bytes : Bytes} (grown : files.begun ⊆ after.begun) (begun : files.Begun json bytes) :
    after.Begun json bytes := by
  obtain ⟨offset, member, decodes⟩ := begun
  exact ⟨offset, grown member, decodes⟩

/-- Nothing a task knows is lost when another save begins. -/
theorem knows_grown {begun : List Nat} (grown : files.begun ⊆ begun)
    (knows : Knows json store position files stage) :
    Knows json store position { files with begun } stage := by
  cases stage with
  | encoded bytes => exact begun_mono grown knows
  | emptied file bytes => exact ⟨begun_mono grown knows.1, knows.2⟩
  | written bytes => exact ⟨begun_mono grown knows.1, knows.2⟩
  | opened file => exact ⟨begun_mono grown knows.1, knows.2⟩
  | loaded bytes => exact begun_mono grown knows
  | failed => exact knows
  | idle => trivial
  | committed => trivial
  | missing => trivial

/-- What a task knows that does not hold the temporary file. -/
theorem Frame.knows (frame : Frame store position files after) {other : Stage} (free : ¬ other.Holds)
    (knows : Knows json store position files other) : Knows json store position after other := by
  cases other with
  | encoded bytes => exact begun_mono frame.begun knows
  | emptied file bytes => exact absurd trivial free
  | written bytes => exact absurd trivial free
  | opened file =>
      obtain ⟨begun, bound, away⟩ := knows
      refine ⟨?_, Nat.lt_of_lt_of_le bound frame.next, frame.tmp file bound away⟩
      rw [frame.contents file bound away]
      exact begun_mono frame.begun begun
  | loaded bytes => exact begun_mono frame.begun knows
  | failed => exact knows
  | idle => trivial
  | committed => trivial
  | missing => trivial

theorem apart_of_free {other : Stage} (free : ¬ other.Holds) : Apart stage other := fun both => free both.2

/-- What a step of one task has to leave to the others. -/
def Spares (json : OffsetJson) (store : CheckpointRoot) (position : Position)
    (files after : CheckpointFiles) (stage next : Stage) : Prop :=
  ∀ other, Knows json store position files other → Apart stage other →
    Knows json store position after other ∧ Apart next other

theorem Frame.spares (frame : Frame store position files after) {next : Stage}
    (free : ∀ other, Knows json store position files other → Apart stage other → ¬ other.Holds) :
    Spares json store position files after stage next :=
  fun other knows apart =>
    ⟨frame.knows (free other knows apart) knows, apart_of_free (free other knows apart)⟩

theorem spares_same {next : Stage} (free : ¬ next.Holds) :
    Spares json store position files files stage next :=
  fun _ knows _ => ⟨knows, fun both => free both.1⟩

theorem begins {offset : Nat} {answer : Except String Bytes} (bounded : offset < u64Modulus)
    (whole : files.Whole json store position)
    (handled : Answers json (.toVec offset) files answer after) :
    after.Whole json store position ∧ Knows json store position after (note .idle (.toVec offset) answer) ∧
      Spares json store position files after .idle (note .idle (.toVec offset) answer) := by
  obtain ⟨rfl, rfl⟩ := Prod.mk.inj handled
  obtain ⟨bytes, encodes, decodes⟩ := json.roundTrip offset bounded
  have grown : files.begun ⊆ offset :: files.begun := List.subset_cons_self _ _
  refine ⟨fun bytes found => begun_mono grown (whole bytes found), ?_, ?_⟩
  · rw [encodes]
    exact ⟨offset, List.mem_cons_self, decodes⟩
  · rw [encodes]
    exact fun other knows _ => ⟨knows_grown grown knows, fun both => both.1⟩

theorem opens {answer : Except FileError Nat} (whole : files.Whole json store position)
    (handled : Answers json (.openFile (pathAt store position)) files answer after) :
    after = files ∧
      Knows json store position files (note .idle (.openFile (pathAt store position)) answer) ∧
      ¬ (note .idle (.openFile (pathAt store position)) answer).Holds := by
  cases found : files.volume.names (pathAt store position) with
  | none =>
      obtain ⟨rfl, rfl⟩ := Prod.mk.inj ((handle_absent json found).symm.trans handled)
      exact ⟨rfl, trivial, fun holds => holds⟩
  | some file =>
      obtain ⟨rfl, rfl⟩ := Prod.mk.inj ((handle_opened json found).symm.trans handled)
      refine ⟨rfl, ⟨whole _ ?_, files.volume.bounded found, ?_⟩, fun holds => holds⟩
      · rw [Volume.file?, found, Option.map_some]
      · intro temporary
        exact path_ne_tmp store position (files.volume.distinct found temporary)

theorem empties {bytes : Bytes} {answer : Except FileError Nat} (whole : files.Whole json store position)
    (begun : files.Begun json bytes) (absent : files.volume.names (tmpAt store position) = none)
    (handled : Answers json (.create (tmpAt store position)) files answer after) :
    after.Whole json store position ∧
      Knows json store position after (note (.encoded bytes) (.create (tmpAt store position)) answer) ∧
      Spares json store position files after (.encoded bytes)
        (note (.encoded bytes) (.create (tmpAt store position)) answer) := by
  obtain ⟨rfl, rfl⟩ := Prod.mk.inj handled
  have fresh : (files.volume.create (tmpAt store position)).1 = files.volume.next := by
    rw [Volume.create, absent]
  refine ⟨?_, ⟨begun, ?_, ?_⟩, Frame.spares ?_ ?_⟩
  · intro found shown
    rw [Volume.file?_create, if_neg (path_ne_tmp store position)] at shown
    exact whole found shown
  · exact files.volume.names_created _
  · exact files.volume.contents_created _
  · refine ⟨fun _ member => member, ?_, ?_, ?_⟩
    · rw [Volume.create, absent]
      exact Nat.le_succ _
    · intro file bound _
      rw [Volume.contents_create, fresh, Function.update_of_ne (Nat.ne_of_lt bound)]
    · intro file bound _
      rw [Volume.names_create, Function.update_self, fresh]
      intro same
      cases same
      exact Nat.lt_irrefl _ bound
  · intro other knows _ holds
    cases other with
    | emptied file content => cases absent.symm.trans knows.2.1
    | written content =>
        have nothing := knows.2
        rw [Volume.file?, absent] at nothing
        cases nothing
    | idle | encoded | committed | opened | loaded | missing | failed => exact holds

theorem writes {file : Nat} {bytes : Bytes} {answer : Except FileError Unit}
    (whole : files.Whole json store position)
    (knows : Knows json store position files (.emptied file bytes))
    (handled : Answers json (.writeAll file bytes) files answer after) :
    after.Whole json store position ∧
      Knows json store position after (note (.emptied file bytes) (.writeAll file bytes) answer) ∧
      Spares json store position files after (.emptied file bytes)
        (note (.emptied file bytes) (.writeAll file bytes) answer) := by
  obtain ⟨rfl, rfl⟩ := Prod.mk.inj handled
  obtain ⟨begun, mine, blank⟩ := knows
  refine ⟨?_, ⟨begun, ?_⟩, Frame.spares ?_ ?_⟩
  · intro found shown
    rw [Volume.file?_write mine, if_neg (path_ne_tmp store position)] at shown
    exact whole found shown
  · rw [Volume.file?_write mine, if_pos rfl, blank, List.drop_nil, List.append_nil]
  · refine ⟨fun _ member => member, Nat.le_refl _, ?_, fun _ _ away => away⟩
    intro other _ away
    have different : other ≠ file := by
      rintro rfl
      exact away mine
    rw [Volume.contents_write, Function.update_of_ne different]
  · exact fun other _ apart holds => apart ⟨trivial, holds⟩

theorem commits {bytes : Bytes} {answer : Except FileError Unit}
    (knows : Knows json store position files (.written bytes))
    (handled : Answers json (.rename (tmpAt store position) (pathAt store position)) files answer after) :
    after.Whole json store position ∧
      Knows json store position after
        (note (.written bytes) (.rename (tmpAt store position) (pathAt store position)) answer) ∧
      Spares json store position files after (.written bytes)
        (note (.written bytes) (.rename (tmpAt store position) (pathAt store position)) answer) := by
  obtain ⟨begun, content⟩ := knows
  obtain ⟨file, mine, _⟩ := Option.map_eq_some_iff.mp content
  obtain ⟨rfl, rfl⟩ := Prod.mk.inj ((handle_renamed json mine).symm.trans handled)
  refine ⟨?_, trivial, Frame.spares ?_ ?_⟩
  · intro found shown
    rw [Volume.file?_move, if_pos rfl, content] at shown
    cases shown
    exact begun
  · refine ⟨fun _ member => member, Nat.le_refl _, fun _ _ _ => rfl, ?_⟩
    intro other _ _
    rw [Volume.names_move, Function.update_of_ne (path_ne_tmp store position).symm,
      Function.update_self]
    exact (Option.some_ne_none other).symm
  · exact fun other _ apart holds => apart ⟨trivial, holds⟩

theorem sound (json : OffsetJson) (store : CheckpointRoot) (position : Position) :
    Tasks.Sound (Answers json) note .idle
      (Concerns json store position) Undisturbed (Permits store position) (Ends json)
      (CheckpointFiles.Whole json store position) (Knows json store position) Apart where
  follows := by
    rintro _ (⟨checkpoint, rfl, bounded, rfl⟩ | rfl)
    · exact follows_saving json store bounded
    · exact follows_loading json store position
  spawn _ _ := ⟨trivial, fun _ both => both.1⟩
  symmetric apart both := apart ⟨both.2, both.1⟩
  step := by
    intro files after stage request answer whole knows permitted undisturbed handled
    match stage, request with
    | .idle, .toVec offset => exact begins permitted whole handled
    | .idle, .openFile path =>
        obtain rfl : path = pathAt store position := permitted
        obtain ⟨rfl, seen, free⟩ := opens whole handled
        exact ⟨whole, seen, spares_same free⟩
    | .encoded bytes, .create path =>
        obtain rfl : path = tmpAt store position := permitted
        exact empties whole knows undisturbed handled
    | .emptied file bytes, .writeAll other content =>
        obtain ⟨rfl, rfl⟩ := permitted
        exact writes whole knows handled
    | .written bytes, .rename source target =>
        obtain ⟨rfl, rfl⟩ := permitted
        exact commits knows handled
    | .opened file, .readToEnd other =>
        obtain rfl : other = file := permitted
        obtain ⟨rfl, rfl⟩ := Prod.mk.inj handled
        exact ⟨whole, knows.1, spares_same fun holds => holds⟩

/-- What a task that knows how it ended has returned. -/
theorem Ends.outcome {value : Finished} (ended : Ends json value stage)
    (knows : Knows json store position files stage) :
    value = .saved (.ok ()) ∨ value = .loaded (.ok none) ∨
      ∃ offset ∈ files.begun, value = .loaded (.ok (some offset)) := by
  cases stage with
  | failed => exact absurd knows id
  | committed =>
      cases value with
      | saved result => exact .inl (congrArg Finished.saved ended)
      | loaded result => exact absurd ended id
  | missing =>
      cases value with
      | saved result => exact absurd ended id
      | loaded result => exact .inr (.inl (congrArg Finished.loaded ended))
  | loaded bytes =>
      cases value with
      | saved result => exact absurd ended id
      | loaded result =>
          obtain ⟨offset, member, decodes⟩ := knows
          refine .inr (.inr ⟨offset, member, congrArg Finished.loaded (Eq.trans ended ?_)⟩)
          rw [decoded, decodes]
  | idle | encoded bytes | emptied file bytes | written bytes | opened file =>
      cases value <;> exact absurd ended id

end Stage

/-- The saves that have ended returned `Ok`, and the loads `None` or an offset
that a save had begun with. -/
def Harmless (state : Tasks CheckpointFiles Stage FileCall FileCall.Answer Finished) : Prop :=
  ∀ task ∈ state.tasks, ∀ value, task.program = .done value →
    value = .saved (.ok ()) ∨ value = .loaded (.ok none) ∨
      ∃ offset ∈ state.world.begun, value = .loaded (.ok (some offset))

/-- However saves and loads of a position interleave: if no save empties the
temporary file of another, none of them does harm. -/
theorem saves_harmless {json : OffsetJson} {store : CheckpointRoot} {position : Position}
    {volume : Volume String UInt8} (new : volume.file? (pathAt store position) = none)
    {state : Tasks CheckpointFiles Stage FileCall FileCall.Answer Finished}
    (reached : Tasks.Reaches (Answers json)
      Stage.note .idle (Concerns json store position) Stage.Undisturbed { volume, begun := [] } state) :
    Harmless state := by
  have whole : CheckpointFiles.Whole json store position { volume, begun := [] } := by
    intro bytes found
    cases new.symm.trans found
  have orderly := (Stage.sound json store position).reaches whole reached
  intro task member value ended
  have follows := orderly.follows task member
  rw [ended] at follows
  exact Stage.Ends.outcome follows (orderly.knows task member)

/-- The second of two saves empties the file that the first has written, and the
first puts it in place.  A load finds nothing in it, and the second save has
nothing left to rename. -/
theorem saves_collide :
    ∃ state : Tasks CheckpointFiles Stage FileCall FileCall.Answer Finished,
      Tasks.Reaches (Answers .decimal)
        Stage.note .idle (Concerns .decimal ⟨"checkpoints"⟩ mirrorPosition) (fun _ _ _ => True)
        { volume := .empty, begun := [] } state ∧
      (∃ task ∈ state.tasks, ∃ reason, task.program = .done (.saved (.error reason))) ∧
      (∃ task ∈ state.tasks, ∃ reason, task.program = .done (.loaded (.error reason))) ∧
      ¬ Harmless state := by
  let store : CheckpointRoot := ⟨"checkpoints"⟩
  let tmp := tmpAt store mirrorPosition
  let path := pathAt store mirrorPosition
  have different : path ≠ tmp := path_ne_tmp store mirrorPosition
  have spawned : Tasks.Reaches (Answers .decimal)
      Stage.note .idle (Concerns .decimal store mirrorPosition) (fun _ _ _ => True)
      { volume := .empty, begun := [] } ⟨{ volume := .empty, begun := [] },
        [⟨.idle, loading .decimal store mirrorPosition⟩, ⟨.idle, saving store (mirrorCheckpoint 2)⟩,
          ⟨.idle, saving store (mirrorCheckpoint 1)⟩]⟩ :=
    .start (.start (.start .refl (.inl ⟨mirrorCheckpoint 1, rfl, by decide, rfl⟩))
      (.inl ⟨mirrorCheckpoint 2, rfl, by decide, rfl⟩)) (.inr rfl)
  have firstEncoded := Tasks.Reaches.answer [_, _] spawned trivial rfl
  have firstEmptied := Tasks.Reaches.answer [_, _] firstEncoded trivial rfl
  have firstWritten := Tasks.Reaches.answer [_, _] firstEmptied trivial rfl
  have secondEncoded := Tasks.Reaches.answer [_] firstWritten trivial rfl
  have secondEmptied := Tasks.Reaches.answer [_] secondEncoded trivial rfl
  -- The first save renames the file that the second has just emptied.
  let volume : Volume String UInt8 := Volume.empty.overwrite tmp (decimalDigits 1)
  have firstCommitted := Tasks.Reaches.answer [_, _] secondEmptied trivial
    (handle_renamed .decimal (volume.names_created tmp))
  have inPlace : ((volume.create tmp).2.move tmp path).names path = some (volume.create tmp).1 := by
    rw [Volume.names_move, Function.update_self, Volume.names_created]
  have opened := Tasks.Reaches.answer [] firstCommitted trivial (handle_opened .decimal inPlace)
  have blank : handle .decimal (.readToEnd (volume.create tmp).1)
      { volume := (volume.create tmp).2.move tmp path, begun := [2, 1] } =
      (.ok [], { volume := (volume.create tmp).2.move tmp path, begun := [2, 1] }) := by
    rw [handle, Volume.contents_move, Volume.contents_created]
  have misread := Tasks.Reaches.answer [] opened trivial blank
  have secondWritten := Tasks.Reaches.answer [_] misread trivial rfl
  have vanished : ((volume.create tmp).2.move tmp path).names tmp = none := by
    rw [Volume.names_move, Function.update_of_ne different.symm, Function.update_self]
  have refused := Tasks.Reaches.answer [_] secondWritten trivial (handle_vanished .decimal vanished)
  refine ⟨_, refused, ⟨_, List.mem_cons_of_mem _ List.mem_cons_self, _, rfl⟩,
    ⟨_, List.mem_cons_self, _, rfl⟩, ?_⟩
  intro harmless
  rcases harmless _ List.mem_cons_self _ rfl with impossible | impossible | ⟨_, _, impossible⟩
  · cases impossible
  · cases impossible
  · cases impossible

/-- Two saves at once, of which the second empties the temporary file when the first
has renamed it, and a load that reads in between. -/
theorem saves_harmless_overlapping :
    ∃ state : Tasks CheckpointFiles Stage FileCall FileCall.Answer Finished,
      Tasks.Reaches (Answers .decimal)
        Stage.note .idle (Concerns .decimal ⟨"checkpoints"⟩ mirrorPosition) Stage.Undisturbed
        { volume := .empty, begun := [] } state ∧
      state.tasks.map Task.program =
        [.done (.loaded (.ok (some 1))), .done (.saved (.ok ())), .done (.saved (.ok ()))] ∧
      Harmless state := by
  let store : CheckpointRoot := ⟨"checkpoints"⟩
  let tmp := tmpAt store mirrorPosition
  let path := pathAt store mirrorPosition
  have different : path ≠ tmp := path_ne_tmp store mirrorPosition
  have spawned : Tasks.Reaches (Answers .decimal)
      Stage.note .idle (Concerns .decimal store mirrorPosition) Stage.Undisturbed
      { volume := .empty, begun := [] } ⟨{ volume := .empty, begun := [] },
        [⟨.idle, loading .decimal store mirrorPosition⟩, ⟨.idle, saving store (mirrorCheckpoint 2)⟩,
          ⟨.idle, saving store (mirrorCheckpoint 1)⟩]⟩ :=
    .start (.start (.start .refl (.inl ⟨mirrorCheckpoint 1, rfl, by decide, rfl⟩))
      (.inl ⟨mirrorCheckpoint 2, rfl, by decide, rfl⟩)) (.inr rfl)
  have firstEncoded := Tasks.Reaches.answer [_, _] spawned trivial rfl
  have secondEncoded := Tasks.Reaches.answer [_] firstEncoded trivial rfl
  have firstEmptied := Tasks.Reaches.answer [_, _] secondEncoded rfl rfl
  have firstWritten := Tasks.Reaches.answer [_, _] firstEmptied trivial rfl
  have firstCommitted := Tasks.Reaches.answer [_, _] firstWritten trivial
    (handle_renamed .decimal (Volume.empty.names_overwrite tmp (decimalDigits 1)))
  let volume : Volume String UInt8 := (Volume.empty.overwrite tmp (decimalDigits 1)).move tmp path
  have free : volume.names tmp = none := by
    rw [Volume.names_move, Function.update_of_ne different.symm, Function.update_self]
  have inPlace : volume.names path = some 0 := by
    rw [Volume.names_move, Function.update_self]
    exact Volume.empty.names_overwrite tmp (decimalDigits 1)
  have secondEmptied := Tasks.Reaches.answer [_] firstCommitted free rfl
  -- The load finds the file of the first save, whatever the second does to its own.
  have found : (volume.create tmp).2.names path = some 0 := by
    rw [Volume.names_create, Function.update_of_ne different, inPlace]
  have whole : (volume.create tmp).2.contents 0 = decimalDigits 1 := by
    rw [Volume.contents_create, Function.update_of_ne (Volume.create_apart different inPlace)]
    rfl
  have opened := Tasks.Reaches.answer [] secondEmptied trivial (handle_opened .decimal found)
  have reads : handle .decimal (.readToEnd 0) { volume := (volume.create tmp).2, begun := [2, 1] } =
      (.ok (decimalDigits 1), { volume := (volume.create tmp).2, begun := [2, 1] }) := by
    rw [handle, whole]
  have loaded := Tasks.Reaches.answer [] opened trivial reads
  have secondWritten := Tasks.Reaches.answer [_] loaded trivial rfl
  have secondCommitted := Tasks.Reaches.answer [_] secondWritten trivial
    (handle_renamed .decimal (volume.names_overwrite tmp (decimalDigits 2)))
  exact ⟨_, secondCommitted, rfl, saves_harmless rfl secondCommitted⟩

end ConnectForge.Infra
