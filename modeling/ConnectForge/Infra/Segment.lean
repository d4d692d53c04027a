import ConnectForge.Infra.Codec
import ConnectForge.Infra.Disk

namespace ConnectForge.Infra

open ConnectForge.Data

/-! On-disk log segments: an append-only file of framed records with a dense
index of their byte positions, rebuilt by scanning the file on open. -/

structure Segment where
  base : Nat
  path : String
  writer : BufWriter
  /-- Byte position of each record, indexed by `offset - base`. -/
  index : List Nat
  writePos : Nat
deriving DecidableEq

/-- Name of the log file for `base` in its partition directory. -/
def logPath (base : Nat) : String := SegmentId.display base ++ ".log"

/-- Create a fresh, empty segment with the given base offset. -/
def Segment.create (base : Nat) (disk : Disk) : Except IoError Segment × Disk :=
  match disk.openAppend (logPath base) with
  | (.error reason, disk) => (.error reason, disk)
  | (.ok (), disk) =>
      (.ok {
        base
        path := logPath base
        writer := .new (logPath base)
        index := []
        writePos := 0 }, disk)

/-- Open an existing segment, rebuilding its index by scanning the log file and
cutting off a partial trailing record. -/
def Segment.open (base : Nat) (dir : Directory) : Except IoError (Segment × Directory) :=
  match dir.read? (logPath base) with
  | none => .error "No such file or directory (os error 2)"
  | some data =>
      let scanned := scan decode data (data.length + 1) 0
      let segment := {
        base
        path := logPath base
        writer := .new (logPath base)
        index := scanned.1.map Prod.fst
        writePos := scanned.2 }
      if scanned.2 < data.length then
        .ok (segment, dir.modify (logPath base) (·.take scanned.2))
      else .ok (segment, dir)

namespace Segment

def len (segment : Segment) : Nat := segment.index.length

def append (segment : Segment) (record : Record) (disk : Disk) :
    Except IoError Unit × Segment × Disk :=
  let bytes := encode record
  match segment.writer.writeAll bytes disk with
  | (.error reason, writer, disk) => (.error reason, { segment with writer }, disk)
  | (.ok (), writer, disk) =>
      match writer.flush disk with
      | (.error reason, writer, disk) => (.error reason, { segment with writer }, disk)
      | (.ok (), writer, disk) =>
          (.ok (), { segment with
            writer
            index := segment.index ++ [segment.writePos]
            writePos := segment.writePos + bytes.length }, disk)

/-- Read records with offset at least `start`, up to `remaining` of them. -/
def readFrom (segment : Segment) (start remaining : Nat) (dir : Directory) :
    Except IoError (List Record) :=
  if remaining = 0 ∨ segment.index.isEmpty then .ok []
  else if segment.base + segment.index.length ≤ start then .ok []
  else
    let startPos := (segment.index[start - segment.base]?).getD 0
    match dir.read? segment.path with
    | none => .error "No such file or directory (os error 2)"
    | some data => .ok (readFrames decode (data.drop startPos) remaining 0)

def remove (segment : Segment) (disk : Disk) : Except IoError Unit × Disk :=
  disk.removeFile segment.path

/-- What a segment leaves in its directory: the files as they are if the process is
killed, and otherwise with what its writer still gets out when it is dropped. -/
inductive Leaves (segment : Segment) (dir : Directory) : Directory → Prop where
  | killed : Leaves segment dir dir
  | dropped (faults : List (Option Fault)) :
      Leaves segment dir (segment.writer.drop { dir, faults }).dir

/-! A segment in step with its file. -/

def contents (records : List Record) : Bytes := records.flatMap encode

/-- The in-memory side of a segment whose file holds exactly these records and
whose writer has nothing left to flush. -/
def holding (base : Nat) (records : List Record) : Segment where
  base := base
  path := logPath base
  writer := .new (logPath base)
  index := (layout encode Record.truncate 0 records).map Prod.fst
  writePos := (contents records).length

@[simp] theorem holding_base (base : Nat) (records : List Record) :
    (holding base records).base = base := rfl

@[simp] theorem holding_path (base : Nat) (records : List Record) :
    (holding base records).path = logPath base := rfl

@[simp] theorem holding_len (base : Nat) (records : List Record) :
    (holding base records).len = records.length := by
  simp only [len, holding, List.length_map, length_layout]

@[simp] theorem contents_nil : contents [] = [] := rfl

theorem contents_append (first second : List Record) :
    contents (first ++ second) = contents first ++ contents second :=
  List.flatMap_append

@[simp] theorem contents_singleton (record : Record) : contents [record] = encode record := by
  simp only [contents, List.flatMap_cons, List.flatMap_nil, List.append_nil]

theorem encode_length_pos (record : Record) : 0 < (encode record).length := by
  simp only [encode, List.length_append, length_leBytes]
  omega

theorem encode_ne_nil (record : Record) : encode record ≠ [] :=
  List.length_pos_iff.mp (encode_length_pos record)

theorem holding_append (base : Nat) (records : List Record) (record : Record) :
    holding base (records ++ [record]) =
      { holding base records with
        index := (holding base records).index ++ [(holding base records).writePos]
        writePos := (holding base records).writePos + (encode record).length } := by
  simp only [holding, layout_append, List.map_append, contents_append, contents_singleton,
    List.length_append, Nat.zero_add]
  rfl

/-- A segment with nothing left to flush makes one write per appended record, at
the flush or, for a record as large as the buffer, past it. -/
theorem append_flushed {disk : Disk} (clear : disk.nextFault = none) {segment : Segment}
    (flushed : segment.writer = .new segment.path) (record : Record) :
    segment.append record disk = (.ok (), { segment with
        index := segment.index ++ [segment.writePos]
        writePos := segment.writePos + (encode record).length },
      disk.appended segment.path (encode record)) := by
  by_cases small : (encode record).length < BufWriter.capacity
  · simp only [append, flushed, BufWriter.writeAll_new_small small,
      BufWriter.flush_buffered (encode_ne_nil record), Disk.write_ok clear]
    rfl
  · simp only [append, flushed, BufWriter.writeAll_new_large (Nat.not_lt.mp small), Disk.write_ok clear,
      BufWriter.flush_new]

theorem append_holding {disk : Disk} (clear : disk.nextFault = none) (base : Nat)
    (records : List Record) (record : Record) :
    (holding base records).append record disk =
      (.ok (), holding base (records ++ [record]), disk.appended (logPath base) (encode record)) := by
  rw [append_flushed clear rfl, holding_append]
  rfl

/-- If the write fails the file has grown by a prefix of the frame, and what is
missing of a buffered frame waits in the writer for the next flush. -/
theorem append_holding_fault {disk : Disk} {fault : Fault} (next : disk.nextFault = some fault)
    (base : Nat) (records : List Record) (record : Record) :
    (holding base records).append record disk =
      (.error fault.reason,
        { holding base records with
          writer := {
            file := logPath base
            buffer := if (encode record).length < BufWriter.capacity then
              (encode record).drop fault.written else [] } },
        disk.appended (logPath base) ((encode record).take fault.written)) := by
  change append { holding base records with writer := BufWriter.new (logPath base) } record disk = _
  by_cases small : (encode record).length < BufWriter.capacity
  · simp only [append, BufWriter.writeAll_new_small small,
      BufWriter.flush_buffered (encode_ne_nil record), Disk.write_fault next, small, ↓reduceIte]
  · simp only [append, BufWriter.writeAll_new_large (Nat.not_lt.mp small), Disk.write_fault next,
      small, ↓reduceIte]
    rfl

theorem frames_contents {records : List Record} (fits : ∀ record ∈ records, record.Fits)
    (front tail : Bytes) (ended : decode tail 0 = none) :
    Frames decode (front ++ contents records ++ tail) front.length
      (layout encode Record.truncate front.length records)
      (front.length + (contents records).length) :=
  decode_selfDelimiting.frames_layout records (fun record member => decode_encode (fits record member))
    front tail ended

/-- Opening a file of whole frames with a torn one behind them drops the torn
part and comes back in step with the file. -/
theorem open_torn {base : Nat} {records : List Record} {torn : Bytes} {dir : Directory}
    (fits : ∀ record ∈ records, record.Fits) (ended : decode torn 0 = none)
    (stored : dir.read? (logPath base) = some (contents records ++ torn)) :
    Segment.open base dir = .ok (holding base records,
      if torn = [] then dir else dir.modify (logPath base) (·.take (contents records).length)) := by
  have scanned := decode_selfDelimiting.scan_eq (frames_contents fits [] torn ended)
  simp only [List.nil_append, List.length_nil, Nat.zero_add] at scanned
  simp only [Segment.open, stored, scanned]
  by_cases clean : torn = []
  · subst clean
    simp [holding]
  · have positive : 0 < torn.length := List.length_pos_iff.mpr clean
    simp [holding, positive, clean]

/-- Reading from a segment returns the records from the requested offset on, in
order, and stops at a torn frame behind them. -/
theorem readFrom_torn {base : Nat} {records : List Record} {torn : Bytes} {dir : Directory}
    (fits : ∀ record ∈ records, record.Fits) (ended : decode torn 0 = none)
    (stored : dir.read? (logPath base) = some (contents records ++ torn)) (start remaining : Nat) :
    (holding base records).readFrom start remaining dir =
      .ok (((records.drop (start - base)).take remaining).map Record.truncate) := by
  have size : (holding base records).index.length = records.length := holding_len base records
  unfold readFrom
  split
  · rename_i nothing
    rcases nothing with zero | empty
    · subst zero
      simp
    · have none : records = [] := List.eq_nil_of_length_eq_zero (by
        rw [← size, List.isEmpty_iff.mp empty, List.length_nil])
      subst none
      simp
  · split
    · rename_i beyond
      rw [holding_base, size] at beyond
      rw [List.drop_eq_nil_of_le (by omega), List.take_nil, List.map_nil]
    · rename_i something before
      rw [holding_base, size] at before
      have filled : (holding base records).index ≠ [] := by
        simp only [not_or, List.isEmpty_iff] at something
        exact something.2
      have bound : start - base < records.length := by
        have positive := List.length_pos_iff.mpr filled
        omega
      have position : ((holding base records).index[start - base]?).getD 0 =
          (contents (records.take (start - base))).length := by
        change ((List.map Prod.fst (layout encode Record.truncate 0 records))[start - base]?).getD 0 = _
        rw [map_fst_layout_getElem? 0 records bound, Option.getD_some, Nat.zero_add]
        rfl
      have suffix : (contents records ++ torn).drop (contents (records.take (start - base))).length =
          contents (records.drop (start - base)) ++ torn := by
        conv_lhs => rw [← List.take_append_drop (start - base) records, contents_append]
        rw [List.take_append_drop, List.append_assoc, List.drop_left]
      have remainingFit : ∀ record ∈ records.drop (start - base), record.Fits :=
        fun record member => fits record (List.mem_of_mem_drop member)
      have frames := frames_contents remainingFit [] torn ended
      simp only [List.nil_append, List.length_nil] at frames
      simp only [holding_path, stored, holding_base, position, suffix, frames.readFrames_eq,
        map_snd_layout, List.map_take]

theorem readFrom_holding {base : Nat} {records : List Record} {dir : Directory}
    (fits : ∀ record ∈ records, record.Fits)
    (stored : dir.read? (logPath base) = some (contents records)) (start remaining : Nat) :
    (holding base records).readFrom start remaining dir =
      .ok (((records.drop (start - base)).take remaining).map Record.truncate) :=
  readFrom_torn fits rfl (by rw [stored, List.append_nil]) start remaining

theorem holding_index (base : Nat) (records : List Record) :
    (holding base records).index =
      (List.range records.length).map fun count => (contents (records.take count)).length := by
  apply List.ext_getElem?
  intro count
  by_cases bound : count < records.length
  · have position : (holding base records).index[count]? = _ := map_fst_layout_getElem? 0 records bound
    rw [position, Nat.zero_add, List.getElem?_map, List.getElem?_range bound]
    rfl
  · have size : (holding base records).index.length = records.length := holding_len base records
    rw [List.getElem?_eq_none (by omega), List.getElem?_eq_none (by simpa using bound)]

/-- Scanning undoes encoding, and a torn frame at the end is cut off: the index
holds the position of every record, the next write goes behind the last. -/
theorem open_scans {base : Nat} {records : List Record} {last : Record} {torn : Bytes}
    {dir : Directory} (fits : ∀ record ∈ last :: records, record.Fits) (strict : torn <+: encode last)
    (shorter : torn.length < (encode last).length)
    (stored : dir.read? (logPath base) = some (contents records ++ torn)) :
    ∃ segment after, Segment.open base dir = .ok (segment, after) ∧
      scan decode (contents records ++ torn) ((contents records ++ torn).length + 1) 0 =
        (segment.index.zip (records.map Record.truncate), segment.writePos) ∧
      segment.index =
        (List.range records.length).map (fun count => (contents (records.take count)).length) ∧
      segment.writePos = (contents records).length ∧
      after.read? (logPath base) = some (contents records) := by
  have recordsFit : ∀ record ∈ records, record.Fits :=
    fun record member => fits record (List.mem_cons_of_mem last member)
  have ended := decode_selfDelimiting.torn (decode_encode (fits last List.mem_cons_self)) strict shorter
  have scanned := decode_selfDelimiting.scan_eq (frames_contents recordsFit [] torn ended)
  simp only [List.nil_append, List.length_nil, Nat.zero_add] at scanned
  refine ⟨holding base records, _, open_torn recordsFit ended stored, ?_, holding_index base records,
    rfl, ?_⟩
  · rw [scanned]
    have pairs : layout encode Record.truncate 0 records =
        (holding base records).index.zip (records.map Record.truncate) :=
      List.zip_of_prod rfl (map_snd_layout 0 records)
    rw [pairs]
    rfl
  · split
    · rename_i clean
      rw [stored, clean, List.append_nil]
    · rw [Directory.read?_modify, stored, Option.map_some, List.take_left]

/-- A keyed record, and seven bytes of another behind it. -/
theorem open_scans_torn :
    ∃ segment after,
      Segment.open 0 ⟨[(logPath 0, contents [⟨0, .epoch, some "k", [1]⟩] ++
        (encode ⟨1, .epoch, none, [2]⟩).take 7)], []⟩ = .ok (segment, after) ∧
      segment.index = [0] ∧ segment.writePos = 27 := by
  have fits : ∀ record ∈ [Record.mk 1 .epoch none [2], ⟨0, .epoch, some "k", [1]⟩], record.Fits := by
    simp only [List.mem_cons, List.not_mem_nil, or_false, forall_eq_or_imp, forall_eq]
    refine ⟨⟨by decide, nofun, by decide⟩, ⟨by decide, ?_, by decide⟩⟩
    intro key present
    cases present
    decide
  obtain ⟨segment, after, opened, _, index, position, _⟩ := open_scans fits (List.take_prefix 7 _)
    (by decide) (show (Directory.mk [(logPath 0, _)] []).read? (logPath 0) = some _ from
      List.lookup_cons_self)
  exact ⟨segment, after, opened, index, position⟩

end Segment

end ConnectForge.Infra
