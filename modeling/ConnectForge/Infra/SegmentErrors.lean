import ConnectForge.Infra.Segment

namespace ConnectForge.Infra

open ConnectForge.Data

/-! A segment through appends that may fail. -/

namespace Segment

/-- Append records one after the other, whatever each call returns; the records
whose append returned are the acknowledged ones. -/
def appendAll (segment : Segment) : List Record → Disk → List Record × Segment × Disk
  | [], disk => ([], segment, disk)
  | record :: rest, disk =>
      match segment.append record disk with
      | (.ok (), segment, disk) =>
          match appendAll segment rest disk with
          | (acknowledged, segment, disk) => (record :: acknowledged, segment, disk)
      | (.error _, segment, disk) => appendAll segment rest disk

/-- Reads return the acknowledged records from the requested one on, and so they
do once the file has been opened again, however the segment was left. -/
structure Returns (base : Nat) (acknowledged : List Record) (segment : Segment) (dir : Directory) :
    Prop where
  reads : ∀ index count, acknowledged.length ≤ index + count →
    segment.readFrom (base + index) count dir = .ok ((acknowledged.drop index).map Record.truncate)
  reopens : ∀ left, segment.Leaves dir left →
    ∃ reopened after, Segment.open base left = .ok (reopened, after) ∧
      reopened.len = acknowledged.length ∧
      ∀ index count, acknowledged.length ≤ index + count →
        reopened.readFrom (base + index) count after =
          .ok ((acknowledged.drop index).map Record.truncate)

/-- The errors the appends can meet, one write for each: only that of a record that
bypasses the buffer, with none of its bytes in the file, or at the very end with
not all of them there. -/
def Survives : List Record → List (Option Fault) → Prop
  | [], _ => True
  | [record], faults =>
      ∀ fault, faults.head?.join = some fault → fault.Cuts (encode record)
  | record :: rest, faults =>
      (∀ fault, faults.head?.join = some fault →
        BufWriter.capacity ≤ (encode record).length ∧ fault.written = 0) ∧
      Survives rest faults.tail

variable {base : Nat}

/-- A segment with an empty buffer leaves its directory as it is. -/
theorem Leaves.holding {records : List Record} {dir left : Directory}
    (leaves : (holding base records).Leaves dir left) : left = dir := by
  cases leaves <;> rfl

theorem Returns.holding {records : List Record} {torn : Bytes} {dir : Directory}
    (fits : ∀ record ∈ records, record.Fits) (ended : decode torn 0 = none)
    (stored : dir.read? (logPath base) = some (contents records ++ torn)) :
    Returns base records (holding base records) dir where
  reads := by
    intro index count enough
    have read := readFrom_torn fits ended stored (base + index) count
    rw [Nat.add_sub_cancel_left, List.take_of_length_le (by rw [List.length_drop]; omega)] at read
    exact read
  reopens := by
    intro left leaves
    rw [leaves.holding]
    refine ⟨_, _, open_torn fits ended stored, holding_len base records, ?_⟩
    intro index count enough
    have kept : (if torn = [] then dir else
        dir.modify (logPath base) (·.take (contents records).length)).read? (logPath base) =
          some (contents records) := by
      split
      · rename_i clean
        rw [stored, clean, List.append_nil]
      · rw [Directory.read?_modify, stored, Option.map_some, List.take_left]
    rw [readFrom_holding fits kept, Nat.add_sub_cancel_left,
      List.take_of_length_le (by rw [List.length_drop]; omega)]

theorem appended_read {disk : Disk} {name : String} {before : Bytes} (bytes : Bytes)
    (stored : disk.dir.read? name = some before) :
    (disk.appended name bytes).dir.read? name = some (before ++ bytes) := by
  rw [Disk.appended, Directory.read?_modify, stored, Option.map_some]

theorem Survives.cons {record second : Record} {rest : List Record} {faults : List (Option Fault)}
    (survives : Survives (record :: second :: rest) faults) :
    (∀ fault, faults.head?.join = some fault →
      BufWriter.capacity ≤ (encode record).length ∧ fault.written = 0) ∧
    Survives (second :: rest) faults.tail := survives

/-- A frame that bypasses the buffer leaves nothing in the segment when its write
fails. -/
theorem appendAll_failed {earlier rest : List Record} {record : Record}
    (large : BufWriter.capacity ≤ (encode record).length) {disk : Disk} {fault : Fault}
    (next : disk.nextFault = some fault) :
    (holding base earlier).appendAll (record :: rest) disk = (holding base earlier).appendAll rest
      (disk.appended (logPath base) ((encode record).take fault.written)) := by
  rw [appendAll, append_holding_fault next, if_neg (Nat.not_lt.mpr large)]
  rfl

theorem appendAll_returns {earlier records : List Record} {disk : Disk}
    (fits : ∀ record ∈ earlier ++ records, record.Fits)
    (stored : disk.dir.read? (logPath base) = some (contents earlier))
    (survives : Survives records disk.faults) :
    Returns base (earlier ++ ((holding base earlier).appendAll records disk).1)
      ((holding base earlier).appendAll records disk).2.1
      ((holding base earlier).appendAll records disk).2.2.dir := by
  induction records generalizing earlier disk with
  | nil =>
      rw [appendAll, List.append_nil]
      exact Returns.holding (fun record member => fits record (by simpa using member)) rfl
        (by rw [stored, List.append_nil])
  | cons record rest ih =>
      have earlierFit : ∀ other ∈ earlier, other.Fits :=
        fun other member => fits other (List.mem_append_left _ member)
      cases next : disk.nextFault with
      | none =>
          rw [appendAll, append_holding next]
          dsimp only
          have grown : (disk.appended (logPath base) (encode record)).dir.read? (logPath base) =
              some (contents (earlier ++ [record])) := by
            rw [appended_read (encode record) stored, contents_append, contents_singleton]
          have later : Survives rest (disk.appended (logPath base) (encode record)).faults := by
            cases rest with
            | nil => trivial
            | cons second rest => exact survives.cons.2
          have returned := ih (by simpa using fits) grown later
          rw [List.append_assoc, List.singleton_append] at returned
          exact returned
      | some fault =>
          cases rest with
          | nil =>
              obtain ⟨large, shorter⟩ := survives fault next
              rw [appendAll_failed large next, appendAll, List.append_nil]
              have ended := decode_selfDelimiting.torn
                (decode_encode (fits record (by simp))) (List.take_prefix fault.written _)
                (by rw [List.length_take]; omega)
              exact Returns.holding earlierFit ended (appended_read _ stored)
          | cons second rest =>
              obtain ⟨large, unwritten⟩ := survives.cons.1 fault next
              rw [appendAll_failed large next]
              refine ih ?_ ?_ survives.cons.2
              · intro other member
                refine fits other ?_
                rw [List.mem_append, List.mem_cons]
                exact (List.mem_append.mp member).imp_right .inr
              · rw [appended_read _ stored, unwritten, List.take_zero, List.append_nil]

theorem create_holding {disk later : Disk} {created : Segment}
    (absent : ∀ file ∈ disk.dir.files, file.1 ≠ logPath base)
    (made : Segment.create base disk = (.ok created, later)) :
    created = holding base [] ∧ later.dir.read? (logPath base) = some [] := by
  cases next : disk.nextFault with
  | some fault => simp [Segment.create, Disk.openAppend, next] at made
  | none =>
      have fresh : logPath base ∉ disk.dir.names := by
        intro member
        obtain ⟨file, found, named⟩ := List.mem_map.mp member
        exact absent file found named
      simp only [Segment.create, Disk.openAppend, next, Directory.touch, fresh, ↓reduceIte] at made
      cases made
      have missing : disk.dir.files.lookup (logPath base) = none := by
        rw [List.lookup_eq_none_iff]
        intro file member
        simpa using fun same => absent file member same.symm
      refine ⟨rfl, ?_⟩
      rw [Directory.read?, List.lookup_append, missing, Option.none_or]
      exact List.lookup_cons_self

/-- A segment returns what it acknowledged, now and when it is opened again, as
long as no failed write left anything in the buffer, and none but the last one
anything in the file. -/
theorem acknowledged_returned {disk later : Disk} {created : Segment} {records : List Record}
    (absent : ∀ file ∈ disk.dir.files, file.1 ≠ logPath base)
    (made : Segment.create base disk = (.ok created, later))
    (fits : ∀ record ∈ records, record.Fits) (survives : Survives records later.faults) :
    Returns base (created.appendAll records later).1 (created.appendAll records later).2.1
      (created.appendAll records later).2.2.dir := by
  obtain ⟨rfl, empty⟩ := create_holding absent made
  exact appendAll_returns (show ∀ record ∈ [] ++ records, record.Fits from fits) empty survives

/-- A payload of which the frame is as large as the buffer. -/
def largeRecord (offset : Nat) : Record :=
  ⟨offset, .epoch, none, List.replicate BufWriter.capacity 7⟩

theorem largeRecord_bypasses (offset : Nat) :
    BufWriter.capacity ≤ (encode (largeRecord offset)).length := by
  simp [encode, largeRecord]
  omega

/-- A record as large as the buffer that fails without a trace, one that is
acknowledged, and another large one of which five bytes are written. -/
theorem acknowledged_returned_after :
    ∃ created later,
      Segment.create 0 ⟨.empty, [none, some ⟨0, "disk full"⟩, none, some ⟨5, "disk full"⟩]⟩ =
        (.ok created, later) ∧
      Returns 0
        (created.appendAll [largeRecord 0, ⟨0, .epoch, none, [1]⟩, largeRecord 1] later).1
        (created.appendAll [largeRecord 0, ⟨0, .epoch, none, [1]⟩, largeRecord 1] later).2.1
        (created.appendAll [largeRecord 0, ⟨0, .epoch, none, [1]⟩, largeRecord 1] later).2.2.dir := by
  obtain ⟨created, later, made, schedule⟩ : ∃ created later, Segment.create 0
      ⟨.empty, [none, some ⟨0, "disk full"⟩, none, some ⟨5, "disk full"⟩]⟩ = (.ok created, later) ∧
      later.faults = [some ⟨0, "disk full"⟩, none, some ⟨5, "disk full"⟩] := ⟨_, _, rfl, rfl⟩
  refine ⟨created, later, made, acknowledged_returned (by simp [Directory.empty]) made ?_ ?_⟩
  · simp only [List.mem_cons, List.not_mem_nil, or_false, forall_eq_or_imp, forall_eq]
    have size : (List.replicate BufWriter.capacity (7 : UInt8)).length < u32Modulus := by
      rw [List.length_replicate]
      decide
    have keyless : ∀ key : String, (none : Option String) = some key → (asBytes key).length < u32Modulus := by
      intro key absent
      cases absent
    exact ⟨⟨by decide, keyless, size⟩, ⟨by decide, keyless, by decide⟩, ⟨by decide, keyless, size⟩⟩
  · rw [schedule]
    refine ⟨?_, ?_, ?_⟩
    · intro fault next
      cases next
      exact ⟨largeRecord_bypasses 0, rfl⟩
    · intro fault next
      cases next
    · intro fault next
      cases next
      exact ⟨largeRecord_bypasses 1, Nat.lt_of_lt_of_le (by decide) (largeRecord_bypasses 1)⟩

/-- A small record that was not acknowledged stays in the buffer and is written
in front of the next one, which then cannot be read alone. -/
theorem unacknowledged_returned :
    ∃ created later,
      Segment.create 0 ⟨.empty, [none, some ⟨0, "disk full"⟩]⟩ = (.ok created, later) ∧
      ¬ Returns 0
        (created.appendAll [⟨0, .epoch, none, [1]⟩, ⟨0, .epoch, none, [2]⟩] later).1
        (created.appendAll [⟨0, .epoch, none, [1]⟩, ⟨0, .epoch, none, [2]⟩] later).2.1
        (created.appendAll [⟨0, .epoch, none, [1]⟩, ⟨0, .epoch, none, [2]⟩] later).2.2.dir := by
  refine ⟨_, _, rfl, ?_⟩
  intro returns
  have read := returns.reads 0 2 (by decide)
  revert read
  decide

end Segment

end ConnectForge.Infra
