import ConnectForge.Infra.Segment

namespace ConnectForge.Infra.Segment

open ConnectForge.Data

/-! Segments opened on files with any bytes in them. -/

/-- What a scan that saw these frames makes of a file. -/
def scanned (base : Nat) (frames : List (Nat × Record)) (final : Nat) : Segment where
  base
  path := logPath base
  writer := .new (logPath base)
  index := frames.map Prod.fst
  writePos := final

variable {base final : Nat} {frames : List (Nat × Record)} {data : Bytes} {dir : Directory}

theorem open_frames (complete : Frames decode data 0 frames final)
    (stored : dir.read? (logPath base) = some data) :
    Segment.open base dir = .ok (scanned base frames final,
      if final < data.length then dir.modify (logPath base) (·.take final) else dir) := by
  have loop := decode_selfDelimiting.scan_eq complete
  simp only [Segment.open, stored, loop]
  split <;> rfl

/-- The file ends with the last frame once it has been opened. -/
theorem read?_opened (stored : dir.read? (logPath base) = some data) (final : Nat) :
    (if final < data.length then dir.modify (logPath base) (·.take final) else dir).read?
      (logPath base) = some (data.take final) := by
  split
  · rw [Directory.read?_modify, stored]
    rfl
  · rename_i whole
    rw [stored, List.take_of_length_le (Nat.not_lt.mp whole)]

theorem readFrom_frames (complete : Frames decode data 0 frames final)
    (stored : dir.read? (logPath base) = some data) (start count : Nat) :
    (scanned base frames final).readFrom start count dir =
      .ok (((frames.map Prod.snd).drop (start - base)).take count) := by
  have size : (scanned base frames final).index.length = frames.length := List.length_map _
  unfold readFrom
  split
  · rename_i nothing
    rcases nothing with rfl | empty
    · rfl
    · rw [List.isEmpty_iff.mp empty, List.length_nil] at size
      simp [List.eq_nil_of_length_eq_zero size.symm]
  · split
    · rename_i beyond
      change base + _ ≤ start at beyond
      rw [List.drop_eq_nil_of_le, List.take_nil]
      rw [List.length_map]
      omega
    · rename_i something before
      change ¬ base + _ ≤ start at before
      have filled : (scanned base frames final).index ≠ [] := by
        simp only [not_or, List.isEmpty_iff] at something
        exact something.2
      have inside : start - base < (scanned base frames final).index.length := by
        have positive := List.length_pos_iff.mpr filled
        omega
      obtain ⟨position, here⟩ : ∃ position,
          (scanned base frames final).index[start - base]? = some position :=
        ⟨_, List.getElem?_eq_getElem inside⟩
      have later := complete.suffix here
      have within : position ≤ data.length := by
        have total := complete.final_le decode_selfDelimiting (Nat.zero_le _)
        have below := later.le decode_selfDelimiting
        omega
      have resumed := decode_selfDelimiting.readFrames_shift (data.take position) (data.drop position)
        count 0
      rw [List.take_append_drop, List.length_take_of_le within, Nat.add_zero] at resumed
      have found : dir.read? (scanned base frames final).path = some data := stored
      have indexed : (scanned base frames final).index[start - (scanned base frames final).base]? =
          some position := here
      simp only [found, indexed, Option.getD_some]
      rw [← resumed, later.readFrames_eq, List.map_drop]

/-- Whatever is in the file, opening it ends with the records up to the first
that cannot be decoded, cuts off the rest, and changes nothing the next time;
and reads by the index return what the scan saw. -/
theorem open_any_file (bounded : base + data.length < u64Modulus)
    (stored : dir.read? (logPath base) = some data) :
    ∃ segment after frames, Segment.open base dir = .ok (segment, after) ∧
      Frames decode data 0 frames segment.writePos ∧ segment.index = frames.map Prod.fst ∧
      segment.index.Pairwise (· < ·) ∧ segment.writePos ≤ data.length ∧
      after.read? (logPath base) = some (data.take segment.writePos) ∧
      Segment.open base after = .ok (segment, after) ∧
      segment.base = base ∧ base + segment.len < u64Modulus ∧
      ∀ start count,
        segment.readFrom start count after =
          .ok (((frames.map Prod.snd).drop (start - base)).take count) ∧
        (base + segment.len ≤ start → segment.readFrom start count after = .ok []) := by
  -- The loop comes to the end of the frames before its fuel is used up.
  obtain ⟨frames, final, complete⟩ : ∃ frames final, Frames decode data 0 frames final :=
    ⟨_, _, decode_selfDelimiting.scan_frames (show data.length < data.length + 1 + 0 by omega)⟩
  have inside := complete.final_le decode_selfDelimiting (Nat.zero_le _)
  have bytes := complete.length_le decode_selfDelimiting
  have again : Frames decode (data.take final) 0 frames final :=
    complete.cut decode_selfDelimiting decode_take
  have size : (scanned base frames final).len = frames.length := List.length_map _
  have cut := read?_opened stored final
  have reopened := open_frames again cut
  rw [List.length_take_of_le inside, if_neg (Nat.lt_irrefl final)] at reopened
  refine ⟨scanned base frames final, _, frames, open_frames complete stored, complete, rfl,
    complete.ascending decode_selfDelimiting, inside, cut, reopened, rfl, by omega, ?_⟩
  intro start count
  have reads := readFrom_frames again cut start count
  refine ⟨reads, ?_⟩
  intro beyond
  rw [reads, List.drop_eq_nil_of_le, List.take_nil]
  rw [List.length_map]
  omega

/-- A record, and a frame behind it whose lengths point outside of the file. -/
theorem open_any_file_corrupt :
    ∃ segment after frames,
      Segment.open 0 ⟨[(logPath 0, encode ⟨0, .epoch, none, [1]⟩ ++ List.replicate 30 255)], []⟩ =
        .ok (segment, after) ∧
      Frames decode (encode ⟨0, .epoch, none, [1]⟩ ++ List.replicate 30 255) 0 frames
        segment.writePos ∧
      Segment.open 0 after = .ok (segment, after) ∧
      segment.readFrom 0 5 after = .ok ((frames.map Prod.snd).take 5) := by
  have stored : (Directory.mk [(logPath 0, encode ⟨0, .epoch, none, [1]⟩ ++ List.replicate 30 255)]
      []).read? (logPath 0) = some _ := List.lookup_cons_self
  obtain ⟨segment, after, frames, opened, complete, _, _, _, _, reopened, _, _, reads⟩ :=
    open_any_file (by decide) stored
  exact ⟨segment, after, frames, opened, complete, reopened, (reads 0 5).1⟩

end ConnectForge.Infra.Segment
