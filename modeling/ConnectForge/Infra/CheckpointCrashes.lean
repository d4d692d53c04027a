import ConnectForge.Infra.CheckpointFiles

namespace ConnectForge.Infra

open Data Interaction

/-! Saves that crashes cut short. -/

namespace CheckpointFiles

variable {json : OffsetJson} {store : CheckpointRoot} {files : CheckpointFiles} {checkpoint : Checkpoint}

/-- What a crash may leave of a call: of a write, any of the bytes it began with. -/
def Torn : FileCall → CheckpointFiles → CheckpointFiles → Prop
  | .writeAll file bytes, files, left =>
      ∃ count, left = { files with volume := files.volume.write file (bytes.take count) }
  | _, _, _ => False

/-- A save that is cut short leaves the checkpoint file alone, or is through. -/
theorem crash_save {left : CheckpointFiles}
    (crash : Crashes (handle json) Torn (store.save checkpoint) files left) :
    left.volume.file? (pathAt store checkpoint.position) =
        files.volume.file? (pathAt store checkpoint.position) ∨
      ∃ bytes, json.toVec checkpoint.offset = .ok bytes ∧ left = files.saved store checkpoint bytes := by
  have other := path_ne_tmp store checkpoint.position
  have untouched : ∀ bytes, (files.volume.overwrite (tmpAt store checkpoint.position) bytes).file?
      (pathAt store checkpoint.position) = files.volume.file? (pathAt store checkpoint.position) := by
    intro bytes
    rw [Volume.file?_overwrite, if_neg other]
  rcases crashes_call crash with rfl | impossible | ⟨encoded, begun, handled, encoding⟩
  · exact .inl rfl
  · cases impossible
  obtain ⟨rfl, rfl⟩ := Prod.mk.inj handled
  cases result : json.toVec checkpoint.offset with
  | error reason =>
      rw [result] at encoding
      obtain rfl := crashes_done encoding
      exact .inl rfl
  | ok bytes =>
      rw [result] at encoding
      rcases crashes_call encoding with rfl | impossible | ⟨created, emptied, handled, creating⟩
      · exact .inl rfl
      · cases impossible
      obtain ⟨rfl, rfl⟩ := Prod.mk.inj handled
      rcases crashes_call creating with rfl | ⟨count, rfl⟩ | ⟨wrote, written, handled, writing⟩
      · left
        exact (Volume.file?_create _ _ _).trans (if_neg other)
      · exact .inl (untouched (bytes.take count))
      obtain ⟨rfl, rfl⟩ := Prod.mk.inj handled
      rcases crashes_call writing with rfl | impossible | ⟨renamed, final, handled, committing⟩
      · exact .inl (untouched bytes)
      · cases impossible
      obtain ⟨rfl, rfl⟩ := Prod.mk.inj (handled.symm.trans (handle_commit json store checkpoint bytes files))
      exact .inr ⟨bytes, rfl, crashes_done committing⟩

end CheckpointFiles

/-- How a save of one position ended. -/
inductive SaveEvent where
  | returned (offset : Nat) (result : Except PortError Unit)
  | crashed (offset : Nat)

/-- The offset of the last save that returned `Ok`, and those of the saves that
were cut short since. -/
structure SaveRecord where
  last : Option Nat
  cut : List Nat

namespace SaveRecord

def add (record : SaveRecord) : SaveEvent → SaveRecord
  | .returned offset (.ok ()) => { last := some offset, cut := [] }
  | .returned _ (.error _) => record
  | .crashed offset => { record with cut := record.cut ++ [offset] }

def of (history : List SaveEvent) : SaveRecord := history.foldl add { last := none, cut := [] }

@[simp] theorem of_snoc (history : List SaveEvent) (event : SaveEvent) :
    of (history ++ [event]) = (of history).add event := List.foldl_append

/-- The values a load may return. -/
def Allows (record : SaveRecord) (value : Option Nat) : Prop :=
  value = record.last ∨ ∃ offset ∈ record.cut, value = some offset

end SaveRecord

open CheckpointFiles

/-- One position of a store: saves one after the other, each of which returns or
is cut short by a crash with a reopening after it, and loads between them. -/
inductive SavedOver (json : OffsetJson) (store : CheckpointRoot) (position : Position) :
    List SaveEvent → CheckpointFiles → Prop where
  | opened {files} (new : files.volume.file? (pathAt store position) = none) :
      SavedOver json store position [] files
  | saved {history files checkpoint} (earlier : SavedOver json store position history files)
      (here : Checkpoint.position checkpoint = position) (bounded : checkpoint.offset < u64Modulus) :
      SavedOver json store position
        (history ++ [.returned checkpoint.offset ((store.save checkpoint).run (handle json) files).1])
        ((store.save checkpoint).run (handle json) files).2
  | crashed {history files left checkpoint} (earlier : SavedOver json store position history files)
      (here : Checkpoint.position checkpoint = position) (bounded : checkpoint.offset < u64Modulus)
      (crash : Crashes (handle json) Torn (store.save checkpoint) files left) :
      SavedOver json store position (history ++ [.crashed checkpoint.offset])
        ((CheckpointRoot.openRoot store.root).run (handle json) left).2
  | loaded {history files} (earlier : SavedOver json store position history files) :
      SavedOver json store position history ((loadAt json store position).run (handle json) files).2

variable {json : OffsetJson} {store : CheckpointRoot} {position : Position} {files : CheckpointFiles}
  {history : List SaveEvent}

/-- A save that is not cut short returns `Ok`, and is what is loaded then. -/
theorem run_save_loads {checkpoint : Checkpoint} (bounded : checkpoint.offset < u64Modulus)
    (store : CheckpointRoot) (files : CheckpointFiles) :
    ((store.save checkpoint).run (handle json) files).1 = .ok () ∧
      (FileCheckpointStore.asStore json).loadAt
          (((store.save checkpoint).run (handle json) files).2.seenAt store) checkpoint.position =
        .ok (some checkpoint.offset) := by
  obtain ⟨bytes, encoded, _⟩ := json.roundTrip checkpoint.offset bounded
  refine ⟨by rw [run_save encoded], ?_⟩
  rw [(save_refines json store checkpoint files).2,
    (FileCheckpointStore.keyed json store.root).step _ _ _ bounded, if_pos rfl]

theorem SavedOver.loads (run : SavedOver json store position history files) :
    ∃ value, (FileCheckpointStore.asStore json).loadAt (files.seenAt store) position = .ok value ∧
      (SaveRecord.of history).Allows value := by
  induction run with
  | @opened files new =>
      refine ⟨none, ?_, .inl rfl⟩
      change decoded json (files.volume.file? (pathAt store position)) = _
      rw [new]
      rfl
  | @saved history files checkpoint earlier here bounded ih =>
      obtain ⟨returned, loads⟩ := @run_save_loads json checkpoint bounded store files
      rw [here] at loads
      refine ⟨some checkpoint.offset, loads, ?_⟩
      rw [SaveRecord.of_snoc, returned]
      exact .inl rfl
  | @crashed history files left checkpoint earlier here bounded crash ih =>
      rw [SaveRecord.of_snoc]
      change ∃ value, (FileCheckpointStore.asStore json).loadAt (left.seenAt store) position = .ok value ∧ _
      rcases crash_save crash with same | ⟨bytes, encoded, rfl⟩
      · obtain ⟨value, loads, allowed⟩ := ih
        refine ⟨value, ?_, ?_⟩
        · rw [here] at same
          change decoded json (left.volume.file? (pathAt store position)) = _
          rw [same]
          exact loads
        · rcases allowed with returned | ⟨offset, member, found⟩
          · exact .inl returned
          · exact .inr ⟨offset, List.mem_append_left _ member, found⟩
      · obtain ⟨_, loads⟩ := @run_save_loads json checkpoint bounded store files
        rw [run_save encoded, here] at loads
        refine ⟨some checkpoint.offset, loads, .inr ⟨checkpoint.offset, ?_, rfl⟩⟩
        exact List.mem_append_right _ List.mem_cons_self
  | loaded earlier ih =>
      rw [load_refines]
      exact ih

theorem SavedOver.returns (run : SavedOver json store position history files) :
    ∀ offset result, .returned offset result ∈ history → result = .ok () := by
  induction run with
  | opened new => exact nofun
  | @saved history files checkpoint earlier here bounded ih =>
      intro offset result member
      rcases List.mem_append.mp member with old | new
      · exact ih offset result old
      · cases List.mem_singleton.mp new
        exact (@run_save_loads json checkpoint bounded store files).1
  | crashed earlier here bounded crash ih =>
      intro offset result member
      rcases List.mem_append.mp member with old | new
      · exact ih offset result old
      · cases List.mem_singleton.mp new
  | loaded earlier ih => exact ih

/-- Wherever crashes strike, saves that return return `Ok`, and a load returns
the offset of the last of them or of a save cut short since.  Right after a save
has returned it is that save's offset. -/
theorem save_atomic (run : SavedOver json store position history files) :
    (∃ value, (loadAt json store position).run (handle json) files = (.ok value, files) ∧
      (SaveRecord.of history).Allows value) ∧
    (∀ earlier offset, history = earlier ++ [.returned offset (.ok ())] →
      ((loadAt json store position).run (handle json) files).1 = .ok (some offset)) ∧
    ∀ offset result, .returned offset result ∈ history → result = .ok () := by
  obtain ⟨value, loads, allowed⟩ := run.loads
  have loaded : (loadAt json store position).run (handle json) files = (.ok value, files) := by
    rw [load_refines, loads]
  refine ⟨⟨value, loaded, allowed⟩, ?_, run.returns⟩
  rintro earlier offset rfl
  rw [SaveRecord.of_snoc] at allowed
  rw [loaded]
  rcases allowed with last | ⟨_, member, _⟩
  · rw [last]
    rfl
  · cases member

section Cut

/-! A first save that is cut short. -/

/-- A value if there is one to load, and `None` otherwise. -/
def SaveRecord.Determines (record : SaveRecord) (value : Option Nat) : Prop :=
  if record.last = none ∧ record.cut = [] then value = none
  else ∃ offset, value = some offset ∧ (record.last = some offset ∨ offset ∈ record.cut)

/-- It may not have reached its rename, and then a load finds nothing; or it may
have, and then a load finds it. -/
theorem first_save_cut :
    (¬ ∀ files, SavedOver .decimal ⟨"checkpoints"⟩ mirrorPosition [.crashed 7] files →
      ∃ value, ((loadAt .decimal ⟨"checkpoints"⟩ mirrorPosition).run (handle .decimal) files).1 = .ok value ∧
        (SaveRecord.of [.crashed 7]).Determines value) ∧
    ¬ ∀ files, SavedOver .decimal ⟨"checkpoints"⟩ mirrorPosition [.crashed 7] files →
      ((loadAt .decimal ⟨"checkpoints"⟩ mirrorPosition).run (handle .decimal) files).1 = .ok none := by
  let new : CheckpointFiles := { volume := .empty, begun := [] }
  have opened : SavedOver .decimal ⟨"checkpoints"⟩ mirrorPosition [] new := .opened rfl
  have bounded : (mirrorCheckpoint 7).offset < u64Modulus := by decide
  constructor
  · intro determined
    obtain ⟨value, loads, stated⟩ := determined _ (opened.crashed rfl bounded .before)
    cases loads
    rw [SaveRecord.Determines, if_neg (by rintro ⟨_, impossible⟩; cases impossible)] at stated
    obtain ⟨_, impossible, _⟩ := stated
    cases impossible
  · intro nothing
    have loads := nothing _ (opened.crashed rfl bounded (.after _ new))
    have found := (@run_save_loads .decimal (mirrorCheckpoint 7) bounded ⟨"checkpoints"⟩ new).2
    rw [load_refines] at loads
    cases found.symm.trans loads

/-- One save returns, and the next is cut short inside its write. -/
theorem save_atomic_second :
    ∃ files, SavedOver .decimal ⟨"checkpoints"⟩ mirrorPosition [.returned 1 (.ok ()), .crashed 23] files ∧
      ∃ value, (loadAt .decimal ⟨"checkpoints"⟩ mirrorPosition).run (handle .decimal) files =
          (.ok value, files) ∧
        (SaveRecord.of [.returned 1 (.ok ()), .crashed 23]).Allows value := by
  let new : CheckpointFiles := { volume := .empty, begun := [] }
  have opened : SavedOver .decimal ⟨"checkpoints"⟩ mirrorPosition [] new := .opened rfl
  have bounded : (mirrorCheckpoint 1).offset < u64Modulus := by decide
  have first := @SavedOver.saved _ _ _ _ _ (mirrorCheckpoint 1) opened rfl bounded
  rw [(@run_save_loads .decimal (mirrorCheckpoint 1) bounded ⟨"checkpoints"⟩ new).1] at first
  have second := @SavedOver.crashed _ _ _ _ _ _ (mirrorCheckpoint 23) first rfl (by decide)
    (.later (.later (.inside ⟨1, rfl⟩)))
  exact ⟨_, second, (save_atomic second).1⟩

end Cut

end ConnectForge.Infra
