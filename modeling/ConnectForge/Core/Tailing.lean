import ConnectForge.Core.StoreSpec

namespace ConnectForge

open Data

/-! A consumer that follows a partition by fetching from the offset the last
fetch returned, while others append and retention prunes. -/

/-- One fetch: from where it was made, where the partition started then, and what
came back. -/
structure Poll where
  cursor : Nat
  start : Nat
  result : FetchResult

/-- The offsets a consumer has received, in the order they came. -/
def received (polls : List Poll) : List Nat :=
  polls.flatMap fun poll => poll.result.records.map Record.offset

section Runs

variable {Store : Type} (answers : (request : StoreCall) → Store → request.Answer → Store → Prop)
  (startOffset : Store → TopicName → Nat → Option Nat) (new : Store) (topic : TopicName)
  (partition first : Nat)

/-- The fetches made so far and the offset the next one is made from. -/
inductive Tails : Store → List Poll → Nat → Prop where
  | opened : Tails new [] first
  | call {store after polls cursor} {request : StoreCall} {answer : request.Answer}
      (earlier : Tails store polls cursor) (answered : answers request store answer after) :
      Tails after polls cursor
  | poll {store after polls cursor max start result} (earlier : Tails store polls cursor)
      (positive : 1 ≤ max) (located : startOffset store topic partition = some start)
      (answered : answers (.fetch topic partition cursor max) store (.ok result) after) :
      Tails after (polls ++ [⟨cursor, start, result⟩]) result.nextOffset

end Runs

/-- Nothing was received twice or out of order, what was stepped over had been
pruned by then, and a fetch that came back empty was at the end. -/
structure MissesNothing (first : Nat) (polls : List Poll) (cursor : Nat) : Prop where
  ascending : (received polls).Pairwise (· < ·)
  skipped : ∀ offset, first ≤ offset → offset < cursor → offset ∉ received polls →
    ∃ poll ∈ polls, poll.cursor ≤ offset ∧ offset < poll.result.nextOffset ∧ offset < poll.start ∧
      poll.start ≤ poll.result.highWatermark
  caughtUp : ∀ poll ∈ polls, poll.result.records = [] → poll.result.highWatermark ≤ poll.cursor

theorem MissesNothing.begin (first : Nat) : MissesNothing first [] first where
  ascending := .nil
  skipped := by
    intro offset above below
    omega
  caughtUp := nofun

namespace PartitionLog

variable (log : PartitionLog) (start max : Nat)

theorem fetch_offsets :
    (log.fetch start max).records.map Record.offset =
      List.range' (Nat.max start log.start) (log.slice start max).length :=
  log.slice_numbered start max

theorem fetch_next :
    (log.fetch start max).nextOffset = Nat.max start log.start + (log.slice start max).length := by
  by_cases none : log.slice start max = []
  · simp [fetch, none, nextAfter]
  · exact (log.slice_numbered start max).nextAfter none _

theorem fetch_empty (unpruned : log.Unpruned) (positive : 1 ≤ max)
    (empty : (log.fetch start max).records = []) : log.next ≤ start := by
  have length := log.length_slice start max
  rw [show log.slice start max = [] from empty, List.length_nil] at length
  by_cases bare : log.records = []
  · rw [PartitionLog.next, bare, unpruned bare]
    exact Nat.zero_le start
  · have positiveLength := List.length_pos_iff.mpr bare
    have bound : log.next ≤ Nat.max start log.start := by omega
    unfold PartitionLog.next at bound ⊢
    rcases Nat.le_total start log.start with below | above
    · rw [show Nat.max start log.start = log.start from Nat.max_eq_right below] at bound
      omega
    · rw [show Nat.max start log.start = start from Nat.max_eq_left above] at bound
      exact bound

end PartitionLog

theorem MissesNothing.poll {first cursor max : Nat} {polls : List Poll} {log : PartitionLog}
    (misses : MissesNothing first polls cursor) (unpruned : log.Unpruned) (positive : 1 ≤ max)
    (behind : ∀ offset ∈ received polls, offset < cursor) :
    MissesNothing first (polls ++ [⟨cursor, log.start, log.fetch cursor max⟩])
        (log.fetch cursor max).nextOffset ∧
      ∀ offset ∈ received (polls ++ [⟨cursor, log.start, log.fetch cursor max⟩]),
        offset < (log.fetch cursor max).nextOffset := by
  have grown : received (polls ++ [⟨cursor, log.start, log.fetch cursor max⟩]) =
      received polls ++
        List.range' (Nat.max cursor log.start) (log.slice cursor max).length := by
    rw [← log.fetch_offsets, received, received, List.flatMap_append, List.flatMap_singleton]
  have next := log.fetch_next cursor max
  have reached : cursor ≤ Nat.max cursor log.start := Nat.le_max_left cursor log.start
  refine ⟨⟨?_, ?_, ?_⟩, ?_⟩
  · rw [grown, List.pairwise_append]
    refine ⟨misses.ascending, List.pairwise_lt_range', ?_⟩
    intro old before new after
    have bound := behind old before
    have bounds := List.mem_range'_1.mp after
    omega
  · intro offset above below missed
    rw [grown, List.mem_append, not_or, List.mem_range'_1] at missed
    by_cases earlier : offset < cursor
    · obtain ⟨poll, member, rest⟩ := misses.skipped offset above earlier missed.1
      exact ⟨poll, List.mem_append_left _ member, rest⟩
    · refine ⟨_, List.mem_append_right _ List.mem_cons_self, Nat.not_lt.mp earlier, below, ?_,
        Nat.le_add_right _ _⟩
      have short : offset < Nat.max cursor log.start := by
        by_contra far
        exact missed.2 ⟨Nat.not_lt.mp far, by omega⟩
      rcases Nat.le_total cursor log.start with under | beyond
      · rw [show Nat.max cursor log.start = log.start from Nat.max_eq_right under] at short
        exact short
      · rw [show Nat.max cursor log.start = cursor from Nat.max_eq_left beyond] at short
        omega
  · intro poll member empty
    rcases List.mem_append.mp member with old | new
    · exact misses.caughtUp poll old empty
    · cases List.mem_singleton.mp new
      exact log.fetch_empty cursor max unpruned positive empty
  · intro offset member
    rw [grown, List.mem_append, List.mem_range'_1] at member
    rw [next]
    rcases member with old | new
    · have bound := behind offset old
      omega
    · exact new.2

def StoreView.Unpruned (view : StoreView) : Prop :=
  view.All fun topic => ∀ log ∈ topic.partitions, log.Unpruned

theorem StoreView.Answers.unpruned {readBack : Record → Record} {request : StoreCall}
    {view after : StoreView} {answer : request.Answer}
    (answers : StoreView.Answers readBack request view answer after) (unpruned : view.Unpruned) :
    after.Unpruned := by
  cases request with
  | createTopic config =>
      rcases answers with ⟨_, rfl⟩ | ⟨_, _, rfl⟩
      · exact unpruned
      · refine OrderedMap.All.insert unpruned _ ?_
        intro log member
        rw [List.eq_of_mem_replicate member]
        exact fun _ => rfl
  | append topic partition records timestamp =>
      rcases answers with ⟨_, rfl⟩ | ⟨state, log, outcome, later, found, here, _, _, appends, rfl⟩
      · exact unpruned
      · have topics := OrderedMap.All.find? unpruned found
        refine OrderedMap.All.insert unpruned _ ?_
        intro other member
        rcases List.mem_or_eq_of_mem_set member with old | rfl
        · exact topics other old
        · exact appends.unpruned (topics log (List.mem_of_getElem? here))
  | topics | partitionCount topic =>
      rw [answers.2]
      exact unpruned
  | fetch topic partition start max =>
      rw [answers.1]
      exact unpruned
  | stats =>
      rw [show after = view from answers]
      exact unpruned

theorem StoreView.Unpruned.log? {view : StoreView} (unpruned : view.Unpruned) {topic : TopicName}
    {partition : Nat} {log : PartitionLog} (found : view.log? topic partition = some log) :
    log.Unpruned := by
  obtain ⟨state, located, here⟩ := Option.bind_eq_some_iff.mp found
  exact OrderedMap.All.find? unpruned located log (List.mem_of_getElem? here)

/-- Following a partition of any store that behaves like what it shows misses
nothing. -/
theorem LogStoreModel.tails (model : LogStoreModel) {topic : TopicName} {partition first : Nat}
    {store : model.Store} {polls : List Poll} {cursor : Nat}
    (run : Tails model.answers model.startOffset model.new topic partition first store polls cursor) :
    MissesNothing first polls cursor := by
  suffices strong : (∃ view, model.Shows store view ∧ view.Unpruned) ∧
      MissesNothing first polls cursor ∧ ∀ offset ∈ received polls, offset < cursor from strong.2.1
  induction run with
  | opened => exact ⟨⟨.empty, model.fresh, nofun⟩, .begin first, nofun⟩
  | call _ answered ih =>
      obtain ⟨⟨view, shows, unpruned⟩, rest⟩ := ih
      obtain ⟨view', answers, shows'⟩ := model.step shows answered
      exact ⟨⟨view', shows', answers.unpruned unpruned⟩, rest⟩
  | @poll store after polls cursor max start result _ positive located answered ih =>
      obtain ⟨⟨view, shows, unpruned⟩, misses, behind⟩ := ih
      obtain ⟨view', answers, shows'⟩ := model.step shows answered
      refine ⟨⟨view', shows', answers.unpruned unpruned⟩, ?_⟩
      obtain ⟨_, ⟨reason, failed⟩ | ⟨log, found, fetched⟩⟩ := answers
      · cases failed
      · cases fetched
        rw [model.start shows, found] at located
        cases located
        exact misses.poll (unpruned.log? found) positive behind

end ConnectForge
