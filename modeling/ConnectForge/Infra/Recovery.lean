import ConnectForge.Infra.PartitionSpec
import Mathlib.Data.List.Sort

namespace ConnectForge.Infra

open ConnectForge.Data SegmentedLog

/-! Rebuilding a partition from its directory. -/

/-- Opening consecutive files of whole frames, the last one possibly torn,
yields the segments in step with them and drops the torn bytes. -/
theorem openSegments_placed {torn : Bytes} (ended : decode torn 0 = none)
    (before places : List (Nat × List Record)) (dir : Directory)
    (ascending : (before ++ places).Pairwise fun left right => left.1 < right.1)
    (fits : ∀ place ∈ places, ∀ record ∈ place.2, record.Fits)
    (stored : dir.files = placedFiles before ++ withTail (placedFiles places) torn) :
    openSegments (places.map Prod.fst) dir =
      .ok (places.map fun place => Segment.holding place.1 place.2,
        { dir with files := placedFiles before ++ placedFiles places }) := by
  induction places generalizing before dir with
  | nil =>
      have unchanged : dir = { dir with files := placedFiles before ++ placedFiles [] } := by
        cases dir
        simp only [placedFiles, List.map_nil, withTail_nil] at stored ⊢
        rw [stored]
      exact congrArg (fun after => Except.ok ([], after)) unchanged
  | cons place rest ih =>
      have absent : ∀ file ∈ placedFiles before, file.1 ≠ logPath place.1 := by
        intro file member same
        obtain ⟨other, found, rfl⟩ := List.mem_map.mp member
        have smaller := (List.pairwise_append.mp ascending).2.2 other found place (by simp)
        have equal := logPath_injective same
        omega
      have placeFits := fits place (by simp)
      cases rest with
      | nil =>
          have shape : dir.files = placedFiles before ++
              [(logPath place.1, Segment.contents place.2 ++ torn)] := stored
          have opened := Segment.open_torn placeFits ended (Directory.read?_file shape absent)
          simp only [List.map_cons, List.map_nil, openSegments, opened]
          congr 2
          by_cases clean : torn = []
          · subst clean
            cases dir
            simp only [List.append_nil] at shape
            simp [shape, placedFiles]
          · rw [if_neg clean, Directory.modify_last _ shape absent, List.take_left]
            rfl
      | cons second rest =>
          have shape : dir.files = placedFiles before ++
              (logPath place.1, Segment.contents place.2 ++ []) ::
                withTail (placedFiles (second :: rest)) torn := by
            rw [stored, List.append_nil]
            exact congrArg (placedFiles before ++ ·) (withTail_cons_cons _ _ _ torn)
          have opened := Segment.open_torn placeFits rfl (Directory.read?_file shape absent)
          have later := ih (before ++ [place]) dir (by simpa using ascending)
            (fun other member => fits other (by simp [member]))
            (by rw [shape]; simp [placedFiles])
          simp only [↓reduceIte] at opened
          rw [List.map_cons, openSegments, opened]
          dsimp only
          rw [later]
          simp [placedFiles]

theorem mergeSort_bases {bases : List Nat} (ascending : bases.Pairwise (· < ·))
    (bounded : ∀ base ∈ bases, base < u64Modulus) {listing : List String}
    (listed : listing.Perm (bases.map logPath)) :
    (listing.filterMap segmentBase).mergeSort = bases := by
  have named : (bases.map logPath).filterMap segmentBase = bases := by
    rw [List.filterMap_map]
    refine (List.filterMap_congr ?_).trans List.filterMap_some
    intro base member
    exact segmentBase_logPath (bounded base member)
  have same : (listing.filterMap segmentBase).mergeSort.Perm bases := by
    have listing := listed.filterMap segmentBase
    rw [named] at listing
    exact (List.mergeSort_perm _ _).trans listing
  exact same.eq_of_pairwise' (List.pairwise_mergeSort' (· ≤ ·) _) (ascending.imp Nat.le_of_lt)

theorem mergeSort_listing (log : SegmentedLog) {torn : Bytes} {listing : List String}
    (listed : listing.Perm ((withTail log.files torn).map Prod.fst)) :
    (listing.filterMap segmentBase).mergeSort = log.places.map Prod.fst := by
  refine mergeSort_bases (List.pairwise_map.mpr log.places_ascending) ?_ ?_
  · intro base member
    obtain ⟨place, found, rfl⟩ := List.mem_map.mp member
    have bounds := placed_bounds found
    exact Nat.lt_of_le_of_lt (by omega) log.bounded
  · rw [map_fst_withTail, SegmentedLog.files, placedFiles, List.map_map] at listed
    rw [List.map_map]
    exact listed

/-- Recovery returns the partition that represents the log in the directory,
without the torn frame at its end. -/
theorem recover_torn (log : SegmentedLog) {torn : Bytes} (ended : decode torn 0 = none)
    {dir : Directory} (stored : dir.files = withTail log.files torn) {listing : List String}
    (listed : listing.Perm dir.names) :
    recoverPartition listing dir = .ok (log.partition, { dir with files := log.files }) := by
  rw [Directory.names, stored] at listed
  have opened := openSegments_placed ended [] log.places dir log.places_ascending
    (fun place member => log.place_fits member) stored
  simp only [recoverPartition, mergeSort_listing log listed, opened]
  have state : log.partition =
      { segments := log.places.map fun place => Segment.holding place.1 place.2
        startOffset := log.start
        nextOffset := log.next } := rfl
  rw [state]
  congr 3
  · cases shape : log.chunks with
    | nil => simp [places, shape, placed, log.unpruned shape]
    | cons head rest => simp [places, shape, placed]
  · rcases List.eq_nil_or_concat' log.chunks with shape | ⟨front, active, split⟩
    · simp [places, shape, placed, log.unpruned shape, SegmentedLog.next, SegmentedLog.records]
    · simp [places_concat split, SegmentedLog.next, SegmentedLog.records, split, Nat.add_assoc]

end ConnectForge.Infra
