import Mathlib.Data.List.Basic
import Mathlib.Data.List.Infix

namespace ConnectForge.Data

/-! Streams of self-delimiting frames.

A decoder looks at a position of a byte string and either recognises a frame
there, returning its value and the position behind it, or gives up.  The facts
below need only that it reads forward, never past the end, and that what it
recognises does not depend on the bytes in front of or behind the frame. -/

variable {α β : Type*}

structure SelfDelimiting (decode : List UInt8 → Nat → Option (β × Nat)) : Prop where
  bounds : ∀ {data pos value next}, decode data pos = some (value, next) →
    pos < next ∧ next ≤ data.length
  extend : ∀ {data pos value next} (more : List UInt8),
    decode data pos = some (value, next) → decode (data ++ more) pos = some (value, next)
  shift : ∀ (front data : List UInt8) (pos : Nat), decode (front ++ data) (front.length + pos) =
    (decode data pos).map fun found => (found.1, front.length + found.2)

/-- A complete scan: every frame from `pos` on with its position, and the
position at which the decoder gives up. -/
inductive Frames (decode : List UInt8 → Nat → Option (β × Nat)) (data : List UInt8) :
    Nat → List (Nat × β) → Nat → Prop where
  | stop {pos} (ended : decode data pos = none) : Frames decode data pos [] pos
  | frame {pos value next rest final} (found : decode data pos = some (value, next))
      (later : Frames decode data next rest final) :
      Frames decode data pos ((pos, value) :: rest) final

/-- The scanning loop.  Every round moves forward, so `data.length` rounds and
one more to notice the end are enough. -/
def scan (decode : List UInt8 → Nat → Option (β × Nat)) (data : List UInt8) :
    Nat → Nat → List (Nat × β) × Nat
  | 0, pos => ([], pos)
  | fuel + 1, pos =>
      match decode data pos with
      | none => ([], pos)
      | some (value, next) =>
          let rest := scan decode data fuel next
          ((pos, value) :: rest.1, rest.2)

/-- Decode at most `remaining` frames from `pos` on. -/
def readFrames (decode : List UInt8 → Nat → Option (β × Nat)) (data : List UInt8) :
    Nat → Nat → List β
  | 0, _ => []
  | remaining + 1, pos =>
      match decode data pos with
      | none => []
      | some (value, next) => value :: readFrames decode data remaining next

/-- Frames laid end to end from `pos` on. -/
def layout (encode : α → List UInt8) (view : α → β) : Nat → List α → List (Nat × β)
  | _, [] => []
  | pos, value :: rest => (pos, view value) :: layout encode view (pos + (encode value).length) rest

section Layout

variable {encode : α → List UInt8} {view : α → β}

@[simp] theorem length_layout (pos : Nat) (values : List α) :
    (layout encode view pos values).length = values.length := by
  induction values generalizing pos with
  | nil => rfl
  | cons value rest ih => simp only [layout, List.length_cons, ih]

@[simp] theorem map_snd_layout (pos : Nat) (values : List α) :
    (layout encode view pos values).map Prod.snd = values.map view := by
  induction values generalizing pos with
  | nil => rfl
  | cons value rest ih => simp only [layout, List.map_cons, ih]

theorem layout_append (pos : Nat) (first second : List α) :
    layout encode view pos (first ++ second) =
      layout encode view pos first ++
        layout encode view (pos + (first.flatMap encode).length) second := by
  induction first generalizing pos with
  | nil => rfl
  | cons value rest ih =>
      simp only [List.cons_append, layout, List.flatMap_cons, List.length_append, ih, Nat.add_assoc]

theorem map_fst_layout_getElem? (pos : Nat) (values : List α) {index : Nat}
    (bound : index < values.length) :
    ((layout encode view pos values).map Prod.fst)[index]? =
      some (pos + ((values.take index).flatMap encode).length) := by
  induction values generalizing pos index with
  | nil => simp at bound
  | cons value rest ih =>
      cases index with
      | zero => simp [layout]
      | succ index =>
          have inner := ih (pos + (encode value).length) (show index < rest.length by simpa using bound)
          simp only [layout, List.map_cons, List.getElem?_cons_succ, inner, List.take_succ_cons,
            List.flatMap_cons, List.length_append, Nat.add_assoc]

end Layout

section Scan

variable {decode : List UInt8 → Nat → Option (β × Nat)} {data : List UInt8}

theorem Frames.unique {pos final final' : Nat} {frames frames' : List (Nat × β)}
    (left : Frames decode data pos frames final) (right : Frames decode data pos frames' final') :
    frames = frames' ∧ final = final' := by
  induction left generalizing frames' final' with
  | stop ended =>
      cases right with
      | stop => exact ⟨rfl, rfl⟩
      | frame found later => simp [ended] at found
  | frame found later ih =>
      cases right with
      | stop ended => simp [ended] at found
      | frame found' later' =>
          cases Option.some.inj (found.symm.trans found')
          obtain ⟨rfl, rfl⟩ := ih later'
          exact ⟨rfl, rfl⟩

theorem SelfDelimiting.scan_frames (delimiting : SelfDelimiting decode) {fuel pos : Nat}
    (enough : data.length < fuel + pos) :
    Frames decode data pos (scan decode data fuel pos).1 (scan decode data fuel pos).2 := by
  induction fuel generalizing pos with
  | zero =>
      apply Frames.stop
      cases found : decode data pos with
      | none => rfl
      | some result =>
          have bounds := delimiting.bounds found
          omega
  | succ fuel ih =>
      cases found : decode data pos with
      | none =>
          simp only [scan, found]
          exact .stop found
      | some result =>
          have bounds := delimiting.bounds found
          simp only [scan, found]
          exact .frame found (ih (by omega))

theorem SelfDelimiting.scan_eq (delimiting : SelfDelimiting decode) {pos final : Nat}
    {frames : List (Nat × β)} (complete : Frames decode data pos frames final) :
    scan decode data (data.length + 1) pos = (frames, final) := by
  have scanned := delimiting.scan_frames (show data.length < data.length + 1 + pos by omega)
  obtain ⟨sameFrames, sameFinal⟩ := scanned.unique complete
  exact Prod.ext sameFrames sameFinal

theorem Frames.readFrames_eq {pos final : Nat} {frames : List (Nat × β)}
    (complete : Frames decode data pos frames final) (remaining : Nat) :
    readFrames decode data remaining pos = (frames.map Prod.snd).take remaining := by
  induction complete generalizing remaining with
  | stop ended => cases remaining <;> simp [readFrames, ended]
  | frame found later ih =>
      cases remaining with
      | zero => rfl
      | succ remaining => simp only [readFrames, found, ih, List.map_cons, List.take_succ_cons]

theorem Frames.le (delimiting : SelfDelimiting decode) {pos final : Nat} {frames : List (Nat × β)}
    (complete : Frames decode data pos frames final) : pos ≤ final := by
  induction complete with
  | stop ended => exact Nat.le_refl _
  | frame found later ih => exact Nat.le_trans (Nat.le_of_lt (delimiting.bounds found).1) ih

theorem Frames.final_le (delimiting : SelfDelimiting decode) {pos final : Nat}
    {frames : List (Nat × β)} (complete : Frames decode data pos frames final)
    (inside : pos ≤ data.length) : final ≤ data.length := by
  induction complete with
  | stop ended => exact inside
  | frame found later ih => exact ih (delimiting.bounds found).2

theorem Frames.positions_ge (delimiting : SelfDelimiting decode) {pos final : Nat}
    {frames : List (Nat × β)} (complete : Frames decode data pos frames final) :
    ∀ position ∈ frames.map Prod.fst, pos ≤ position := by
  induction complete with
  | stop ended => simp
  | @frame pos value next rest final found later ih =>
      intro position member
      rcases List.mem_cons.mp member with rfl | inRest
      · exact Nat.le_refl _
      · have before := (delimiting.bounds found).1
        have after := ih position inRest
        omega

theorem Frames.ascending (delimiting : SelfDelimiting decode) {pos final : Nat}
    {frames : List (Nat × β)} (complete : Frames decode data pos frames final) :
    (frames.map Prod.fst).Pairwise (· < ·) := by
  induction complete with
  | stop ended => exact List.Pairwise.nil
  | frame found later ih =>
      refine List.pairwise_cons.mpr ⟨?_, ih⟩
      intro position member
      have before := (delimiting.bounds found).1
      have after := later.positions_ge delimiting position member
      exact Nat.lt_of_lt_of_le before after

theorem Frames.length_le (delimiting : SelfDelimiting decode) {pos final : Nat}
    {frames : List (Nat × β)} (complete : Frames decode data pos frames final) :
    pos + frames.length ≤ final := by
  induction complete with
  | stop ended => exact Nat.le_refl _
  | frame found later ih =>
      have before := (delimiting.bounds found).1
      simp only [List.length_cons]
      omega

theorem Frames.cut (delimiting : SelfDelimiting decode)
    (shortens : ∀ {pos value next size}, decode data pos = some (value, next) → next ≤ size →
      decode (data.take size) pos = some (value, next))
    {pos final : Nat} {frames : List (Nat × β)} (complete : Frames decode data pos frames final) :
    Frames decode (data.take final) pos frames final := by
  induction complete with
  | @stop pos ended =>
      apply Frames.stop
      cases found : decode (data.take pos) pos with
      | none => rfl
      | some result =>
          have bounds := delimiting.bounds found
          rw [List.length_take] at bounds
          omega
  | frame found later ih => exact .frame (shortens found (later.le delimiting)) ih

theorem Frames.suffix {pos final : Nat} {frames : List (Nat × β)}
    (complete : Frames decode data pos frames final) {index position : Nat}
    (here : (frames.map Prod.fst)[index]? = some position) :
    Frames decode data position (frames.drop index) final := by
  induction complete generalizing index with
  | stop ended => simp at here
  | frame found later ih =>
      cases index with
      | zero =>
          cases here
          exact .frame found later
      | succ index => exact ih here

theorem Frames.found {pos final : Nat} {frames : List (Nat × β)}
    (complete : Frames decode data pos frames final) :
    ∀ position ∈ frames.map Prod.fst, ∃ frame, decode data position = some frame := by
  induction complete with
  | stop ended => exact List.forall_mem_nil _
  | frame found later ih => exact List.forall_mem_cons.mpr ⟨⟨_, found⟩, ih⟩

theorem SelfDelimiting.found_drop (delimiting : SelfDelimiting decode) {pos : Nat} {frame : β × Nat}
    (found : decode data pos = some frame) :
    ∃ next, decode (data.drop pos) 0 = some (frame.1, next) := by
  have bounds := delimiting.bounds found
  have shifted := delimiting.shift (data.take pos) (data.drop pos) 0
  rw [List.take_append_drop, List.length_take_of_le (by omega), Nat.add_zero, found] at shifted
  obtain ⟨⟨value, next⟩, here, same⟩ := Option.map_eq_some_iff.mp shifted.symm
  cases same
  exact ⟨next, here⟩

theorem SelfDelimiting.readFrames_shift (delimiting : SelfDelimiting decode) (front data : List UInt8)
    (remaining pos : Nat) :
    readFrames decode (front ++ data) remaining (front.length + pos) =
      readFrames decode data remaining pos := by
  induction remaining generalizing pos with
  | zero => rfl
  | succ remaining ih =>
      simp only [readFrames, delimiting.shift]
      cases decode data pos with
      | none => rfl
      | some found => simp only [Option.map_some, ih]

end Scan

section Encoded

variable {decode : List UInt8 → Nat → Option (β × Nat)} {encode : α → List UInt8} {view : α → β}

/-- No strict prefix of a frame is a frame: extending it to the whole one
would give a second reading of the same bytes. -/
theorem SelfDelimiting.torn (delimiting : SelfDelimiting decode) {whole torn : List UInt8}
    {value : β} (complete : decode whole 0 = some (value, whole.length))
    (strict : torn <+: whole) (shorter : torn.length < whole.length) : decode torn 0 = none := by
  cases found : decode torn 0 with
  | none => rfl
  | some result =>
      obtain ⟨other, next⟩ := result
      obtain ⟨missing, rfl⟩ := strict
      have bounds := (delimiting.bounds found).2
      have extended := delimiting.extend missing found
      cases Option.some.inj (complete.symm.trans extended)
      omega

theorem SelfDelimiting.frames_layout (delimiting : SelfDelimiting decode) (values : List α)
    (decodes : ∀ value ∈ values,
      decode (encode value) 0 = some (view value, (encode value).length))
    (front tail : List UInt8) (ended : decode tail 0 = none) :
    Frames decode (front ++ values.flatMap encode ++ tail) front.length
      (layout encode view front.length values) (front.length + (values.flatMap encode).length) := by
  induction values generalizing front with
  | nil =>
      apply Frames.stop
      have shifted := delimiting.shift front tail 0
      simpa [ended] using shifted
  | cons value rest ih =>
      have first := delimiting.extend (rest.flatMap encode ++ tail) (decodes value (by simp))
      have shifted := delimiting.shift front (encode value ++ (rest.flatMap encode ++ tail)) 0
      rw [first] at shifted
      have later := ih (fun other member => decodes other (by simp [member])) (front ++ encode value)
      simp only [List.flatMap_cons, List.length_append, List.append_assoc, layout] at later shifted ⊢
      rw [← Nat.add_assoc]
      exact .frame shifted later

end Encoded

end ConnectForge.Data
