import Mathlib.Logic.Function.Basic
import ConnectForge.Data.Keyed
import ConnectForge.Infra.SegmentedLog
import ConnectForge.Types.Connector

namespace ConnectForge

open Data

/-! Checkpoint stores.  Both flatten a position into one text, the memory store
for its map and the file store for its file names. -/

structure Position where
  connector : ConnectorId
  topic : TopicName
  partition : Nat
deriving DecidableEq

def Checkpoint.position (checkpoint : Checkpoint) : Position :=
  ⟨checkpoint.connector, checkpoint.topic, checkpoint.partition⟩

structure CheckpointStore (σ : Type) where
  load : σ → ConnectorId → TopicName → Nat → Except PortError (Option Nat)
  save : σ → Checkpoint → Except PortError Unit × σ

namespace CheckpointStore

variable {σ : Type} (store : CheckpointStore σ)

def loadAt (state : σ) (position : Position) : Except PortError (Option Nat) :=
  store.load state position.connector position.topic position.partition

def saveAll (initial : σ) (saves : List Checkpoint) : σ :=
  saves.foldl (fun state checkpoint => (store.save state checkpoint).2) initial

def Admits (positions : Set Position) (checkpoint : Checkpoint) : Prop :=
  checkpoint.position ∈ positions ∧ checkpoint.offset < u64Modulus

/-- However many checkpoints are saved at the given positions, each position
loads the one last saved for it, and a save at one changes no other. -/
structure Independent (initial : σ) (positions : Set Position) : Prop where
  loads : ∀ saves, (∀ checkpoint ∈ saves, Admits positions checkpoint) → ∀ position ∈ positions,
    store.loadAt (store.saveAll initial saves) position =
      .ok (lastUnder Checkpoint.position Checkpoint.offset saves position)
  others : ∀ saves, (∀ checkpoint ∈ saves, Admits positions checkpoint) →
    ∀ checkpoint, Admits positions checkpoint → ∀ position ∈ positions,
    checkpoint.position ≠ position →
      store.loadAt (store.save (store.saveAll initial saves) checkpoint).2 position =
        store.loadAt (store.saveAll initial saves) position

/-- A store that keeps its checkpoints under an encoding of their positions. -/
structure Keyed (initial : σ) (encode : Position → String) : Prop where
  empty : ∀ position, store.loadAt initial position = .ok none
  step : ∀ state checkpoint position, checkpoint.offset < u64Modulus →
    store.loadAt (store.save state checkpoint).2 position =
      if encode checkpoint.position = encode position then .ok (some checkpoint.offset)
      else store.loadAt state position

variable {store} {initial : σ} {encode : Position → String}

theorem Keyed.loads (keyed : store.Keyed initial encode) {saves : List Checkpoint}
    (bounded : ∀ checkpoint ∈ saves, checkpoint.offset < u64Modulus) (position : Position) :
    store.loadAt (store.saveAll initial saves) position =
      .ok (lastUnder (fun checkpoint => encode checkpoint.position) Checkpoint.offset saves
        (encode position)) := by
  induction saves using List.reverseRecOn with
  | nil => exact keyed.empty position
  | append_singleton saves checkpoint ih =>
      have saved : store.saveAll initial (saves ++ [checkpoint]) =
          (store.save (store.saveAll initial saves) checkpoint).2 := by
        rw [saveAll, List.foldl_append]
        rfl
      rw [saved, keyed.step _ _ _ (bounded checkpoint (by simp)),
        ih fun other member => bounded other (by simp [member]), lastUnder_snoc]
      split <;> rfl

/-- Such a store keeps positions apart exactly when the encoding does. -/
theorem Keyed.independent_iff (keyed : store.Keyed initial encode) (positions : Set Position) :
    store.Independent initial positions ↔ Set.InjOn encode positions := by
  constructor
  · intro independent first known second other same
    by_contra different
    -- A single save for the first position shows up at the second.
    let checkpoint : Checkpoint := ⟨first.connector, first.topic, first.partition, 0⟩
    have bounded : checkpoint.offset < u64Modulus := Nat.two_pow_pos 64
    have shared : encode checkpoint.position = encode second := same
    have unchanged := independent.others [] (by simp) checkpoint ⟨known, bounded⟩ second other different
    rw [keyed.step _ _ _ bounded, if_pos shared] at unchanged
    have nothing := keyed.empty second
    exact absurd (unchanged.trans nothing) (by simp)
  · intro distinct
    refine ⟨?_, ?_⟩
    · intro saves admitted position known
      rw [keyed.loads (fun checkpoint member => (admitted checkpoint member).2),
        lastUnder_encoded distinct _ (fun checkpoint member => (admitted checkpoint member).1) known]
    · intro saves _ checkpoint admitted position known different
      rw [keyed.step _ _ _ admitted.2,
        if_neg fun same => different (distinct admitted.1 known same)]

end CheckpointStore

namespace Infra

def key (connector : ConnectorId) (topic : TopicName) (partition : Nat) : String :=
  connector.asStr ++ "__" ++ topic.asStr ++ "__" ++ partition.repr

/-- The part of the key in front of the partition. -/
def joined (position : Position) : String :=
  position.connector.asStr ++ "__" ++ position.topic.asStr

def keyAt (position : Position) : String := key position.connector position.topic position.partition

theorem toList_keyAt (position : Position) :
    (keyAt position).toList =
      ((joined position).toList ++ ['_']) ++ '_' :: Nat.toDigits 10 position.partition := by
  simp [keyAt, key, joined]

theorem keyAt_eq_iff {first second : Position} :
    keyAt first = keyAt second ↔ first.partition = second.partition ∧ joined first = joined second := by
  rw [← String.toList_inj, toList_keyAt, toList_keyAt]
  constructor
  · intro same
    -- The digits of the partition follow the last underscore.
    obtain ⟨names, digits⟩ := split_last Nat.underscore_not_in_toDigits
      Nat.underscore_not_in_toDigits same
    have number := congrArg (fun chars => Nat.ofDigitChars 10 chars 0) digits
    simp only [Nat.ofDigitChars_ten_toDigits] at number
    exact ⟨number, String.toList_inj.mp (List.append_cancel_right names)⟩
  · rintro ⟨number, names⟩
    rw [number, names]

structure MemoryCheckpointStore where
  map : String → Option Nat

namespace MemoryCheckpointStore

def new : MemoryCheckpointStore := ⟨fun _ => none⟩

def load (store : MemoryCheckpointStore) (connector : ConnectorId) (topic : TopicName)
    (partition : Nat) : Except PortError (Option Nat) :=
  .ok (store.map (key connector topic partition))

def save (store : MemoryCheckpointStore) (checkpoint : Checkpoint) :
    Except PortError Unit × MemoryCheckpointStore :=
  let name := key checkpoint.connector checkpoint.topic checkpoint.partition
  (.ok (), { map := Function.update store.map name (some checkpoint.offset) })

def asStore : CheckpointStore MemoryCheckpointStore := ⟨load, save⟩

theorem keyed : asStore.Keyed new keyAt where
  empty := fun _ => rfl
  step := by
    intro state checkpoint position _
    change Except.ok (Function.update state.map (keyAt checkpoint.position) (some checkpoint.offset)
      (keyAt position)) = _
    rw [Function.update_apply]
    by_cases same : keyAt checkpoint.position = keyAt position
    · rw [if_pos same, if_pos same.symm]
    · rw [if_neg same, if_neg fun equal => same equal.symm]
      rfl

end MemoryCheckpointStore

/-- `serde_json` on a `u64`: what it writes it reads back. -/
structure OffsetJson where
  toVec : Nat → Except String Bytes
  fromSlice : Bytes → Except String Nat
  roundTrip : ∀ offset < u64Modulus, ∃ bytes, toVec offset = .ok bytes ∧ fromSlice bytes = .ok offset

def decimalDigits (number : Nat) : Bytes := (Nat.toDigits 10 number).map fun digit => digit.toNat.toUInt8

theorem digit_bounds {number : Nat} {digit : Char} (member : digit ∈ Nat.toDigits 10 number) :
    48 ≤ digit.toNat ∧ digit.toNat ≤ 57 := by
  have ascii := Nat.isDigit_of_mem_toDigits (by decide) (by decide) member
  simp only [Char.isDigit, ge_iff_le, Bool.and_eq_true, decide_eq_true_eq] at ascii
  exact ⟨UInt32.le_iff_toNat_le.mp ascii.1, UInt32.le_iff_toNat_le.mp ascii.2⟩

def numberOf (digits : Bytes) : Nat :=
  Nat.ofDigitChars 10 (digits.map fun byte => Char.ofNat byte.toNat) 0

theorem numberOf_decimalDigits (number : Nat) : numberOf (decimalDigits number) = number := by
  have restored : (decimalDigits number).map (fun byte => Char.ofNat byte.toNat) =
      Nat.toDigits 10 number := by
    rw [decimalDigits, List.map_map]
    refine (List.map_congr_left ?_).trans (List.map_id _)
    intro digit member
    have bounds := digit_bounds member
    have byte : digit.toNat.toUInt8.toNat = digit.toNat := UInt8.toNat_ofNat_of_lt' (Nat.lt_of_le_of_lt bounds.2 (by decide))
    rw [Function.comp_apply, byte, Char.ofNat_toNat, id]
  rw [numberOf, restored, Nat.ofDigitChars_ten_toDigits]

def OffsetJson.decimal : OffsetJson where
  toVec := fun offset => .ok (decimalDigits offset)
  fromSlice := fun bytes =>
    let offset := Nat.ofDigitChars 10 (bytes.map fun byte => Char.ofNat byte.toNat) 0
    if decimalDigits offset = bytes then .ok offset else .error "invalid number"
  roundTrip := by
    intro offset _
    refine ⟨decimalDigits offset, rfl, ?_⟩
    have same := numberOf_decimalDigits offset
    unfold numberOf at same
    simp only [same, ↓reduceIte]

/-- `Path::with_extension` on a file name. -/
def withExtension (name : String) (extension : String) : String :=
  String.ofList (rsplitAtDot name.toList).1 ++ "." ++ extension

structure FileCheckpointStore where
  root : String
  files : String → Option Bytes

namespace FileCheckpointStore

def openRoot (root : String) : FileCheckpointStore := ⟨root, fun _ => none⟩

/-- `Path::join` of the root and a file name. -/
def join (store : FileCheckpointStore) (name : String) : String := store.root ++ "/" ++ name

def fileName (connector : ConnectorId) (topic : TopicName) (partition : Nat) : String :=
  key connector topic partition ++ ".json"

def path (store : FileCheckpointStore) (connector : ConnectorId) (topic : TopicName)
    (partition : Nat) : String := store.join (fileName connector topic partition)

def load (json : OffsetJson) (store : FileCheckpointStore) (connector : ConnectorId)
    (topic : TopicName) (partition : Nat) : Except PortError (Option Nat) :=
  match store.files (store.path connector topic partition) with
  | some bytes =>
      match json.fromSlice bytes with
      | .ok offset => .ok (some offset)
      | .error reason => .error (.permanent ("decode checkpoint: " ++ reason))
  | none => .ok none

/-- `tokio::fs::rename`. -/
def rename (files : String → Option Bytes) (source target : String) : String → Option Bytes :=
  Function.update (Function.update files target (files source)) source none

def save (json : OffsetJson) (store : FileCheckpointStore) (checkpoint : Checkpoint) :
    Except PortError Unit × FileCheckpointStore :=
  let path := store.path checkpoint.connector checkpoint.topic checkpoint.partition
  match json.toVec checkpoint.offset with
  | .error reason => (.error (.permanent ("encode checkpoint: " ++ reason)), store)
  | .ok bytes =>
      let tmp := store.join (withExtension
        (fileName checkpoint.connector checkpoint.topic checkpoint.partition) "json.tmp")
      let written := Function.update store.files tmp (some bytes)
      (.ok (), { store with files := rename written tmp path })

def asStore (json : OffsetJson) : CheckpointStore FileCheckpointStore := ⟨load json, save json⟩

theorem withExtension_fileName (position : Position) :
    withExtension (fileName position.connector position.topic position.partition) "json.tmp" =
      keyAt position ++ ".json.tmp" := by
  have nonempty : (keyAt position).toList ≠ [] := by simp [toList_keyAt]
  have split : rsplitAtDot (keyAt position ++ ".json").toList =
      ((keyAt position).toList, some ['j', 's', 'o', 'n']) := by
    rw [String.toList_append]
    exact rsplitAtDot_stem nonempty (by decide) (by decide)
  change String.ofList (rsplitAtDot (keyAt position ++ ".json").toList).1 ++ "." ++ "json.tmp" = _
  rw [split, String.ofList_toList, String.append_assoc]
  rfl

theorem path_ne_tmp (store : FileCheckpointStore) (first second : String) :
    store.join (first ++ ".json") ≠ store.join (second ++ ".json.tmp") := by
  intro same
  have ends := congrArg (fun text => text.toList.reverse.head?) same
  simp [join] at ends

theorem path_inj {store : FileCheckpointStore} {first second : String}
    (same : store.join (first ++ ".json") = store.join (second ++ ".json")) : first = second := by
  have chars := congrArg String.toList same
  simp only [join, String.toList_append] at chars
  exact String.toList_inj.mp (List.append_cancel_right (List.append_cancel_left chars))

theorem rename_written (files : String → Option Bytes) (bytes : Bytes) {tmp target name : String}
    (other : name ≠ tmp) :
    rename (Function.update files tmp (some bytes)) tmp target name =
      if name = target then some bytes else files name := by
  simp [rename, Function.update_apply, other]

theorem keyed (json : OffsetJson) (root : String) : (asStore json).Keyed (openRoot root) keyAt where
  empty := fun _ => rfl
  step := by
    intro state checkpoint position bounded
    obtain ⟨bytes, encoded, decoded⟩ := json.roundTrip checkpoint.offset bounded
    let tmp := state.join (keyAt checkpoint.position ++ ".json.tmp")
    let target := state.join (keyAt checkpoint.position ++ ".json")
    let wanted := state.join (keyAt position ++ ".json")
    have saved : ((asStore json).save state checkpoint).2.files =
        rename (Function.update state.files tmp (some bytes)) tmp target := by
      have name := withExtension_fileName checkpoint.position
      simp only [asStore, save, encoded, tmp, target]
      rw [← name]
      rfl
    have root : ((asStore json).save state checkpoint).2.root = state.root := by
      simp only [asStore, save, encoded]
    have loads : ∀ store : FileCheckpointStore, store.root = state.root →
        (asStore json).loadAt store position =
          match store.files wanted with
          | some bytes =>
              match json.fromSlice bytes with
              | .ok offset => .ok (some offset)
              | .error reason => .error (.permanent ("decode checkpoint: " ++ reason))
          | none => .ok none := by
      intro store same
      change load json store position.connector position.topic position.partition = _
      rw [load, path, join, same]
      rfl
    rw [loads _ root, saved, rename_written _ _ (state.path_ne_tmp _ _)]
    by_cases same : keyAt checkpoint.position = keyAt position
    · have found : wanted = target := by simp only [wanted, target, same]
      rw [if_pos found, if_pos same]
      simp only [decoded]
    · rw [if_neg fun equal => same (path_inj equal).symm, if_neg same, loads state rfl]

end FileCheckpointStore

/-- Checkpoints stay apart in either store exactly when no two positions in use
have the same partition and run together into the same text. -/
theorem checkpoints_independent (json : OffsetJson) (root : String) (positions : Set Position) :
    let apart := ∀ first ∈ positions, ∀ second ∈ positions, first.partition = second.partition →
      first.connector.asStr ++ "__" ++ first.topic.asStr =
        second.connector.asStr ++ "__" ++ second.topic.asStr → first = second
    (MemoryCheckpointStore.asStore.Independent .new positions ↔ apart) ∧
    ((FileCheckpointStore.asStore json).Independent (.openRoot root) positions ↔ apart) := by
  intro apart
  have distinct : Set.InjOn keyAt positions ↔ apart := by
    constructor
    · intro injective first known second other number names
      exact injective known other (keyAt_eq_iff.mpr ⟨number, names⟩)
    · intro holds first known second other same
      obtain ⟨number, names⟩ := keyAt_eq_iff.mp same
      exact holds first known second other number names
  exact ⟨(MemoryCheckpointStore.keyed.independent_iff positions).trans distinct,
    ((FileCheckpointStore.keyed json root).independent_iff positions).trans distinct⟩

/-- Connector `a` on topic `b__c` and connector `a__b` on topic `c` share their
checkpoints. -/
theorem shared_checkpoint :
    ¬ MemoryCheckpointStore.asStore.Independent .new Set.univ ∧
    ¬ (FileCheckpointStore.asStore .decimal).Independent (.openRoot "checkpoints") Set.univ := by
  let first : Position := ⟨⟨"a", by decide⟩, ⟨"b__c", by decide⟩, 0⟩
  let second : Position := ⟨⟨"a__b", by decide⟩, ⟨"c", by decide⟩, 0⟩
  have shared : ¬ Set.InjOn keyAt Set.univ := by
    intro injective
    have same : first = second := injective (Set.mem_univ _) (Set.mem_univ _) (by decide)
    exact absurd same (by decide)
  exact ⟨fun independent => shared ((MemoryCheckpointStore.keyed.independent_iff _).mp independent),
    fun independent => shared (((FileCheckpointStore.keyed _ _).independent_iff _).mp independent)⟩

end Infra

end ConnectForge
