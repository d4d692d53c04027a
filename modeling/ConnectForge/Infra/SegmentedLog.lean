import ConnectForge.Core.PartitionLog
import ConnectForge.Infra.Partition

namespace ConnectForge.Infra

open ConnectForge.Data

/-! The log a partition represents: records cut into consecutive chunks, one
file each.  The partition state and the directory are both functions of it. -/

section Names

theorem ofDigitChars_display (base : Nat) :
    Nat.ofDigitChars 10 (SegmentId.display base).toList 0 = base := by
  rw [SegmentId.display, String.toList_ofList, Nat.ofDigitChars_append,
    Nat.ofDigitChars_replicate_zero, Nat.mul_zero, Nat.ofDigitChars_ten_toDigits]

theorem isDigit_display {base : Nat} {char : Char}
    (member : char ∈ (SegmentId.display base).toList) : char.isDigit = true := by
  rw [SegmentId.display, String.toList_ofList, List.mem_append] at member
  rcases member with padding | digit
  · rw [List.eq_of_mem_replicate padding]
    decide
  · exact Nat.isDigit_of_mem_toDigits (by decide) (by decide) digit

theorem display_ne_nil (base : Nat) : (SegmentId.display base).toList ≠ [] := by
  simp [SegmentId.display]

theorem logPath_injective {left right : Nat} (same : logPath left = logPath right) :
    left = right := by
  have texts := congrArg String.toList same
  simp only [logPath, String.toList_append, List.append_cancel_right_eq] at texts
  rw [← ofDigitChars_display left, texts, ofDigitChars_display]

theorem rsplitAtDot_stem {stem extension : List Char} (nonempty : stem ≠ [])
    (plain : '.' ∉ extension) (long : extension ≠ []) :
    rsplitAtDot (stem ++ '.' :: extension) = (stem, some extension) := by
  have skip : ∀ char ∈ extension.reverse, decide (char ≠ '.') = true := by
    intro char member
    simp only [decide_eq_true_eq]
    rintro rfl
    exact plain (List.mem_reverse.mp member)
  have notDots : stem ++ '.' :: extension ≠ ['.', '.'] := by
    intro same
    have lengths := congrArg List.length same
    have stemPositive := List.length_pos_iff.mpr nonempty
    have extensionPositive := List.length_pos_iff.mpr long
    simp only [List.length_append, List.length_cons, List.length_nil] at lengths
    omega
  have shape : (stem ++ '.' :: extension).reverse = extension.reverse ++ '.' :: stem.reverse := by
    simp
  have dropped : (stem ++ '.' :: extension).reverse.dropWhile (· ≠ '.') = '.' :: stem.reverse := by
    rw [shape, List.dropWhile_append_of_pos skip]
    simp
  have taken : (stem ++ '.' :: extension).reverse.takeWhile (· ≠ '.') = extension.reverse := by
    rw [shape, List.takeWhile_append_of_pos skip]
    simp
  cases reversed : stem.reverse with
  | nil => exact absurd (List.reverse_eq_nil_iff.mp reversed) nonempty
  | cons char rest =>
      have stemShape : (char :: rest).reverse = stem := by rw [← reversed, List.reverse_reverse]
      rw [rsplitAtDot, if_neg notDots, dropped, reversed, taken]
      simp only [stemShape, List.reverse_reverse]

theorem parseU64_digits {digits : List Char} (nonempty : digits ≠ [])
    (decimal : ∀ char ∈ digits, char.isDigit = true)
    (bound : Nat.ofDigitChars 10 digits 0 < u64Modulus) :
    parseU64 digits = some (Nat.ofDigitChars 10 digits 0) := by
  have unsigned : stripPlus digits = digits := by
    unfold stripPlus
    split
    · rename_i rest
      have plus : Char.isDigit '+' = true := decimal '+' (by simp)
      contradiction
    · rfl
  have filled : digits.isEmpty = false := by simpa using nonempty
  have all : digits.all Char.isDigit = true := List.all_eq_true.mpr decimal
  simp only [parseU64, unsigned, filled, all, Bool.not_true, Bool.or_self, Bool.false_eq_true,
    ↓reduceIte, bound]

theorem segmentBase_logPath {base : Nat} (bound : base < u64Modulus) :
    segmentBase (logPath base) = some base := by
  have name : (logPath base).toList = (SegmentId.display base).toList ++ '.' :: ['l', 'o', 'g'] := by
    rw [logPath, String.toList_append]
    rfl
  have parsed := parseU64_digits (display_ne_nil base) (fun _ member => isDigit_display member)
    (by rw [ofDigitChars_display]; exact bound)
  rw [ofDigitChars_display] at parsed
  have split : rsplitAtDot ((SegmentId.display base).toList ++ '.' :: ['l', 'o', 'g']) =
      ((SegmentId.display base).toList, some ['l', 'o', 'g']) :=
    rsplitAtDot_stem (display_ne_nil base) (by decide) (by decide)
  simp only [segmentBase, name, split, ↓reduceIte, parsed]

end Names

/-- Chunks with the base offset each of them starts at. -/
def placed : Nat → List (List Record) → List (Nat × List Record)
  | _, [] => []
  | base, chunk :: rest => (base, chunk) :: placed (base + chunk.length) rest

theorem placed_append (base : Nat) (first second : List (List Record)) :
    placed base (first ++ second) =
      placed base first ++ placed (base + first.flatten.length) second := by
  induction first generalizing base with
  | nil => rfl
  | cons chunk rest ih =>
      simp only [List.cons_append, placed, ih, List.flatten_cons, List.length_append, Nat.add_assoc]

@[simp] theorem length_placed (base : Nat) (chunks : List (List Record)) :
    (placed base chunks).length = chunks.length := by
  induction chunks generalizing base with
  | nil => rfl
  | cons chunk rest ih => simp only [placed, List.length_cons, ih]

theorem placed_bounds {base : Nat} {chunks : List (List Record)} {place : Nat × List Record}
    (member : place ∈ placed base chunks) :
    base ≤ place.1 ∧ place.1 + place.2.length ≤ base + chunks.flatten.length := by
  induction chunks generalizing base with
  | nil => simp [placed] at member
  | cons chunk rest ih =>
      simp only [List.flatten_cons, List.length_append]
      rcases List.mem_cons.mp member with rfl | later
      · exact ⟨Nat.le_refl _, by dsimp; omega⟩
      · have bounds := ih later
        omega

theorem mem_placed {chunks : List (List Record)} {chunk : List Record} (member : chunk ∈ chunks)
    (base : Nat) : ∃ place ∈ placed base chunks, place.2 = chunk := by
  induction chunks generalizing base with
  | nil => simp at member
  | cons head rest ih =>
      rcases List.mem_cons.mp member with rfl | later
      · exact ⟨(base, chunk), by simp [placed], rfl⟩
      · obtain ⟨place, found, same⟩ := ih later (base + head.length)
        exact ⟨place, by simp [placed, found], same⟩

/-- Only the last chunk may be empty, so no two chunks start at one offset. -/
theorem placed_ascending (base : Nat) {chunks : List (List Record)}
    (filled : ∀ chunk ∈ chunks.dropLast, chunk ≠ []) :
    (placed base chunks).Pairwise fun left right => left.1 < right.1 := by
  induction chunks generalizing base with
  | nil => exact .nil
  | cons chunk rest ih =>
      cases rest with
      | nil => simp [placed]
      | cons second rest =>
          have nonempty : 0 < chunk.length :=
            List.length_pos_iff.mpr (filled chunk (by simp [List.dropLast]))
          refine List.pairwise_cons.mpr ⟨?_, ih _ fun later member => filled later (by
            simp [List.dropLast, member])⟩
          intro place member
          have bounds := placed_bounds member
          dsimp
          omega

def placedFiles (places : List (Nat × List Record)) : List (String × Bytes) :=
  places.map fun place => (logPath place.1, Segment.contents place.2)

/-- The same files with some bytes behind the last of them. -/
def withTail (files : List (String × Bytes)) (torn : Bytes) : List (String × Bytes) :=
  files.dropLast ++ files.getLast?.toList.map fun file => (file.1, file.2 ++ torn)

@[simp] theorem withTail_nil (torn : Bytes) : withTail [] torn = [] := rfl

@[simp] theorem withTail_concat (front : List (String × Bytes)) (file : String × Bytes)
    (torn : Bytes) : withTail (front ++ [file]) torn = front ++ [(file.1, file.2 ++ torn)] := by
  simp [withTail]

theorem withTail_cons_cons (first second : String × Bytes) (rest : List (String × Bytes))
    (torn : Bytes) :
    withTail (first :: second :: rest) torn = first :: withTail (second :: rest) torn := by
  simp [withTail]

theorem withTail_append_cons (front rest : List (String × Bytes)) (file : String × Bytes)
    (torn : Bytes) : withTail (front ++ file :: rest) torn = front ++ withTail (file :: rest) torn := by
  rw [withTail, withTail, List.dropLast_append_of_ne_nil (List.cons_ne_nil file rest),
    List.getLast?_append, List.getLast?_cons, Option.some_or, List.append_assoc]

@[simp] theorem withTail_empty (files : List (String × Bytes)) : withTail files [] = files := by
  rcases List.eq_nil_or_concat' files with rfl | ⟨front, file, rfl⟩
  · rfl
  · simp

@[simp] theorem map_fst_withTail (files : List (String × Bytes)) (torn : Bytes) :
    (withTail files torn).map Prod.fst = files.map Prod.fst := by
  rcases List.eq_nil_or_concat' files with rfl | ⟨front, file, rfl⟩
  · rfl
  · simp

section Directories

variable {dir : Directory} {front rest : List (String × Bytes)} {name : String} {bytes : Bytes}

theorem Directory.read?_file (files : dir.files = front ++ (name, bytes) :: rest)
    (absent : ∀ file ∈ front, file.1 ≠ name) : dir.read? name = some bytes := by
  rw [Directory.read?, files]
  clear files
  induction front with
  | nil => simp
  | cons file front ih =>
      have different : (name == file.1) = false := by
        simpa using (absent file (by simp)).symm
      rw [List.cons_append, List.lookup_cons, different]
      exact ih fun other member => absent other (by simp [member])

theorem Directory.modify_last (change : Bytes → Bytes) (files : dir.files = front ++ [(name, bytes)])
    (absent : ∀ file ∈ front, file.1 ≠ name) :
    dir.modify name change = { dir with files := front ++ [(name, change bytes)] } := by
  have kept : front.map (fun file => if file.1 = name then (file.1, change file.2) else file) =
      front := by
    calc
      _ = front.map id := List.map_congr_left fun file member => by
        simp only [absent file member, ↓reduceIte, id_eq]
      _ = front := List.map_id front
  simp only [Directory.modify, files, List.map_append, kept, List.map_cons, List.map_nil, ↓reduceIte]

theorem Directory.touch_new (absent : ∀ file ∈ dir.files, file.1 ≠ name) :
    dir.touch name = { dir with files := dir.files ++ [(name, [])] } := by
  have missing : name ∉ dir.names := by
    intro member
    obtain ⟨file, found, same⟩ := List.mem_map.mp member
    exact absent file found same
  simp only [Directory.touch, missing, ↓reduceIte]

theorem Directory.unlink_first (files : dir.files = (name, bytes) :: rest)
    (absent : ∀ file ∈ rest, file.1 ≠ name) :
    dir.unlink name = { files := rest, removed := dir.removed ++ [(name, bytes)] } := by
  have kept : rest.filter (fun file => decide (file.1 ≠ name)) = rest :=
    List.filter_eq_self.mpr fun file member => by simpa using absent file member
  have others : rest.filter (fun file => decide (file.1 = name)) = [] :=
    List.filter_eq_nil_iff.mpr fun file member => by simpa using absent file member
  rw [Directory.unlink, files, List.filter_cons, List.filter_cons, kept, others]
  simp

end Directories

/-- A log cut into files.  Only the last chunk, a segment just opened, may be
empty; a log without chunks has never been pruned. -/
structure SegmentedLog where
  start : Nat
  chunks : List (List Record)
  numbered : Numbered start chunks.flatten
  filled : ∀ chunk ∈ chunks.dropLast, chunk ≠ []
  unpruned : chunks = [] → start = 0
  fits : ∀ record ∈ chunks.flatten, record.Fits
  bounded : start + chunks.flatten.length < u64Modulus

namespace SegmentedLog

theorem numbered_empty : Numbered 0 ([] : List (List Record)).flatten := .nil 0

theorem bounded_empty : 0 + ([] : List (List Record)).flatten.length < u64Modulus := by decide

def empty : SegmentedLog where
  start := 0
  chunks := []
  numbered := numbered_empty
  filled := List.forall_mem_nil _
  unpruned := fun _ => rfl
  fits := List.forall_mem_nil _
  bounded := bounded_empty

def records (log : SegmentedLog) : List Record := log.chunks.flatten

def next (log : SegmentedLog) : Nat := log.start + log.records.length

def places (log : SegmentedLog) : List (Nat × List Record) := placed log.start log.chunks

def files (log : SegmentedLog) : List (String × Bytes) := placedFiles log.places

def partition (log : SegmentedLog) : PartitionState where
  segments := log.places.map fun place => Segment.holding place.1 place.2
  startOffset := log.start
  nextOffset := log.next

def view (log : SegmentedLog) : PartitionLog where
  start := log.start
  records := log.records.map Record.truncate
  numbered := by
    unfold Numbered
    rw [List.map_map, List.length_map]
    exact log.numbered

@[simp] theorem view_next (log : SegmentedLog) : log.view.next = log.next := by
  rw [PartitionLog.next, view, List.length_map]
  rfl

theorem places_ascending (log : SegmentedLog) :
    log.places.Pairwise fun left right => left.1 < right.1 :=
  placed_ascending log.start log.filled

theorem place_fits (log : SegmentedLog) {place : Nat × List Record} (member : place ∈ log.places) :
    ∀ record ∈ place.2, record.Fits := by
  have inChunks : ∀ {base : Nat} {chunks : List (List Record)},
      place ∈ placed base chunks → place.2 ∈ chunks := by
    intro base chunks
    induction chunks generalizing base with
    | nil => simp [placed]
    | cons chunk rest ih =>
        intro found
        rcases List.mem_cons.mp found with rfl | later
        · simp
        · simp [ih later]
  intro record inPlace
  exact log.fits record (List.mem_flatten.mpr ⟨place.2, inChunks member, inPlace⟩)

end SegmentedLog

/-! How the chunks change. -/

/-- Open a new chunk if there is none or the last one is full. -/
def rollChunks (segmentMax : Nat) (chunks : List (List Record)) : List (List Record) :=
  match chunks.getLast? with
  | none => [[]]
  | some active => if segmentMax ≤ active.length then chunks ++ [[]] else chunks

def extendLast (chunks : List (List Record)) (record : Record) : List (List Record) :=
  chunks.dropLast ++ [chunks.getLast?.getD [] ++ [record]]

def pushRecord (segmentMax : Nat) (chunks : List (List Record)) (record : Record) :
    List (List Record) :=
  extendLast (rollChunks segmentMax chunks) record

@[simp] theorem flatten_rollChunks (segmentMax : Nat) (chunks : List (List Record)) :
    (rollChunks segmentMax chunks).flatten = chunks.flatten := by
  rcases List.eq_nil_or_concat' chunks with rfl | ⟨front, active, rfl⟩
  · rfl
  · simp only [rollChunks, List.getLast?_append, List.getLast?_singleton, Option.some_or]
    split <;> simp

theorem rollChunks_ne_nil (segmentMax : Nat) (chunks : List (List Record)) :
    rollChunks segmentMax chunks ≠ [] := by
  rcases List.eq_nil_or_concat' chunks with rfl | ⟨front, active, rfl⟩
  · simp [rollChunks]
  · simp only [rollChunks, List.getLast?_append, List.getLast?_singleton, Option.some_or]
    split <;> simp

@[simp] theorem extendLast_concat (front : List (List Record)) (active : List Record)
    (record : Record) :
    extendLast (front ++ [active]) record = front ++ [active ++ [record]] := by
  simp [extendLast]

theorem flatten_extendLast {chunks : List (List Record)} (nonempty : chunks ≠ [])
    (record : Record) : (extendLast chunks record).flatten = chunks.flatten ++ [record] := by
  rcases List.eq_nil_or_concat' chunks with rfl | ⟨front, active, rfl⟩
  · contradiction
  · simp

@[simp] theorem flatten_pushRecord (segmentMax : Nat) (chunks : List (List Record))
    (record : Record) :
    (pushRecord segmentMax chunks record).flatten = chunks.flatten ++ [record] := by
  rw [pushRecord, flatten_extendLast (rollChunks_ne_nil segmentMax chunks), flatten_rollChunks]

theorem flatten_foldl_pushRecord (segmentMax : Nat) (chunks : List (List Record))
    (records : List Record) :
    (records.foldl (pushRecord segmentMax) chunks).flatten = chunks.flatten ++ records := by
  induction records generalizing chunks with
  | nil => simp
  | cons record rest ih =>
      rw [List.foldl_cons, ih, flatten_pushRecord, List.append_assoc, List.singleton_append]

namespace SegmentedLog

/-- The log after the roll check.  A chunk is only left behind once it is full,
hence not empty. -/
def rollOver (log : SegmentedLog) {segmentMax : Nat} (positive : 0 < segmentMax) :
    SegmentedLog where
  start := log.start
  chunks := rollChunks segmentMax log.chunks
  numbered := by rw [flatten_rollChunks]; exact log.numbered
  filled := by
    have filled := log.filled
    rcases List.eq_nil_or_concat' log.chunks with empty | ⟨front, active, split⟩
    · simp [rollChunks, empty]
    · rw [split] at filled ⊢
      simp only [List.dropLast_concat] at filled
      simp only [rollChunks, List.getLast?_append, List.getLast?_singleton, Option.some_or]
      by_cases full : segmentMax ≤ active.length
      · have nonempty : active ≠ [] := List.length_pos_iff.mp (by omega)
        intro chunk member
        rw [if_pos full, List.dropLast_concat, List.mem_append, List.mem_singleton] at member
        rcases member with earlier | rfl
        · exact filled chunk earlier
        · exact nonempty
      · simpa only [if_neg full, List.dropLast_concat] using filled
  unpruned := fun none => absurd none (rollChunks_ne_nil segmentMax log.chunks)
  fits := by rw [flatten_rollChunks]; exact log.fits
  bounded := by rw [flatten_rollChunks]; exact log.bounded

@[simp] theorem rollOver_records (log : SegmentedLog) {segmentMax : Nat}
    (positive : 0 < segmentMax) : (log.rollOver positive).records = log.records :=
  flatten_rollChunks segmentMax log.chunks

@[simp] theorem rollOver_next (log : SegmentedLog) {segmentMax : Nat}
    (positive : 0 < segmentMax) : (log.rollOver positive).next = log.next := by
  rw [next, rollOver_records]
  rfl

/-- The log with a record added to its last chunk. -/
def extend (log : SegmentedLog) (record : Record) (nonempty : log.chunks ≠ [])
    (offset : record.offset = log.next) (fits : record.Fits) (room : log.next + 1 < u64Modulus) :
    SegmentedLog where
  start := log.start
  chunks := extendLast log.chunks record
  numbered := by
    rw [flatten_extendLast nonempty]
    refine numbered_append.mpr ⟨log.numbered, ?_⟩
    unfold Numbered
    rw [List.map_singleton, offset, List.length_singleton, List.range'_one]
    rfl
  filled := by simpa only [extendLast, List.dropLast_concat] using log.filled
  unpruned := by simp [extendLast]
  fits := by
    rw [flatten_extendLast nonempty]
    intro other member
    rcases List.mem_append.mp member with earlier | last
    · exact log.fits other earlier
    · rw [List.mem_singleton.mp last]
      exact fits
  bounded := by
    rw [flatten_extendLast nonempty, List.length_append, ← Nat.add_assoc]
    exact room

theorem extend_records (log : SegmentedLog) {record : Record} (nonempty : log.chunks ≠ [])
    (offset : record.offset = log.next) (fits : record.Fits) (room : log.next + 1 < u64Modulus) :
    (log.extend record nonempty offset fits room).records = log.records ++ [record] :=
  flatten_extendLast nonempty record

theorem extend_next (log : SegmentedLog) {record : Record} (nonempty : log.chunks ≠ [])
    (offset : record.offset = log.next) (fits : record.Fits) (room : log.next + 1 < u64Modulus) :
    (log.extend record nonempty offset fits room).next = log.next + 1 := by
  rw [next, extend_records, List.length_append, List.length_singleton]
  rfl

/-- The log with the record added the way an append adds it: behind the roll
check, in the last chunk. -/
def push (log : SegmentedLog) {segmentMax : Nat} (positive : 0 < segmentMax) (record : Record)
    (offset : record.offset = log.next) (fits : record.Fits)
    (room : record.offset + 1 < u64Modulus) : SegmentedLog :=
  (log.rollOver positive).extend record (rollChunks_ne_nil segmentMax log.chunks)
    (by rw [rollOver_next]; exact offset) fits (by rw [rollOver_next, ← offset]; exact room)

section Push

variable {log : SegmentedLog} {segmentMax : Nat} {positive : 0 < segmentMax} {record : Record}
  {offset : record.offset = log.next} {fits : record.Fits} {room : record.offset + 1 < u64Modulus}

@[simp] theorem push_start : (log.push positive record offset fits room).start = log.start := rfl

@[simp] theorem push_chunks : (log.push positive record offset fits room).chunks =
    pushRecord segmentMax log.chunks record := rfl

@[simp] theorem push_records : (log.push positive record offset fits room).records =
    log.records ++ [record] :=
  flatten_pushRecord segmentMax log.chunks record

@[simp] theorem push_next : (log.push positive record offset fits room).next = log.next + 1 := by
  rw [next, push_records, List.length_append, List.length_singleton, push_start, next,
    Nat.add_assoc]

end Push

/-- The log without its first chunk, when there is another one. -/
def dropHead (log : SegmentedLog) {head second : List Record} {rest : List (List Record)}
    (split : log.chunks = head :: second :: rest) : SegmentedLog where
  start := log.start + head.length
  chunks := second :: rest
  numbered := by
    have numbered := log.numbered
    rw [split, List.flatten_cons] at numbered
    exact (numbered_append.mp numbered).2
  filled := by
    intro chunk member
    apply log.filled chunk
    rw [split]
    exact List.mem_cons_of_mem head member
  unpruned := by simp
  fits := by
    intro record member
    apply log.fits record
    rw [split, List.flatten_cons]
    exact List.mem_append_right head member
  bounded := by
    have bounded := log.bounded
    rw [split, List.flatten_cons, List.length_append, ← Nat.add_assoc] at bounded
    exact bounded

/-- One log is another without some chunks at its head. -/
structure Trims (log : SegmentedLog) (gone : List (List Record)) (kept : SegmentedLog) : Prop where
  chunks : log.chunks = gone ++ kept.chunks
  start : kept.start = log.start + gone.flatten.length

section Trims

variable {log kept : SegmentedLog} {gone : List (List Record)}

theorem Trims.refl (log : SegmentedLog) : log.Trims [] log := ⟨rfl, by simp⟩

theorem Trims.cons {head second : List Record} {rest : List (List Record)}
    (split : log.chunks = head :: second :: rest) (trims : (log.dropHead split).Trims gone kept) :
    log.Trims (head :: gone) kept := by
  refine ⟨?_, ?_⟩
  · rw [split, List.cons_append, ← trims.chunks]
    rfl
  · rw [trims.start, List.flatten_cons, List.length_append, ← Nat.add_assoc]
    rfl

theorem Trims.records (trims : log.Trims gone kept) :
    log.records = gone.flatten ++ kept.records := by
  rw [SegmentedLog.records, trims.chunks, List.flatten_append, SegmentedLog.records]

theorem Trims.next (trims : log.Trims gone kept) : kept.next = log.next := by
  rw [SegmentedLog.next, SegmentedLog.next, trims.records, trims.start, List.length_append]
  omega

end Trims

end SegmentedLog

end ConnectForge.Infra
