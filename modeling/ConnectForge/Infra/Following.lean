import ConnectForge.Core.Tailing
import ConnectForge.Infra.FailedAppend
import ConnectForge.Infra.StoreRefinement

namespace ConnectForge.Infra

open Data

/-! Following a partition of either store by `next_offset`. -/

/-- Whatever is appended and pruned in between, a consumer that fetches from the
offset the last fetch returned misses nothing: on the memory store with any
records, on the file store with records that fit the framing. -/
theorem following_misses_nothing (topic : TopicName) (partition first : Nat) :
    (∀ {store : MemoryLogStore} {polls : List Poll} {cursor : Nat},
      Tails (fun request store answer after =>
          MemoryLogStore.handle request store = some (answer, after))
        MemoryLogStore.startOffset .new topic partition first store polls cursor →
      MissesNothing first polls cursor) ∧
    ∀ {store : FileLogStore} {polls : List Poll} {cursor : Nat},
      Tails (fun request store answer after => Storable request ∧
          FileLogStore.handle [] request store = some (answer, after))
        FileLogStore.startOffset .new topic partition first store polls cursor →
      MissesNothing first polls cursor :=
  ⟨fun run => memoryStore.tails run, fun run => fileStore.tails run⟩

section Events

variable (answers : (request : StoreCall) → FileLogStore → request.Answer → FileLogStore → Prop)

theorem tails_events (record : ProduceRecord)
    (created : ∀ store after, FileLogStore.handle [] (.createTopic eventsTopic) store =
      some (.ok true, after) → answers (.createTopic eventsTopic) store (.ok true) after)
    (appended : ∀ store outcome after,
      FileLogStore.handle [] (.append eventsTopic.name 0 [record] .epoch) store = some (outcome, after) →
      answers (.append eventsTopic.name 0 [record] .epoch) store outcome after) :
    ∃ store, Tails answers FileLogStore.startOffset .new eventsTopic.name 0 0 store [] 0 ∧
      store.topics.find? eventsTopic.name.asStr = some {
        config := eventsTopic
        partitions := [{
          state := {
            segments := [Segment.holding 0 [.fromProduce record 0 .epoch]]
            startOffset := 0
            nextOffset := 1 }
          dir := {
            files := [(logPath 0, encode (.fromProduce record 0 .epoch))]
            removed := [] } }] } := by
  let fresh : TopicState := { config := eventsTopic, partitions := [{ state := .fresh, dir := .empty }] }
  let empty : FileLogStore := { FileLogStore.new with
    topics := OrderedMap.empty.insert eventsTopic.name.asStr fresh }
  have made : Tails answers FileLogStore.startOffset .new eventsTopic.name 0 0 empty [] 0 :=
    @Tails.call _ _ _ _ _ _ _ _ _ _ _ (.createTopic eventsTopic) _ .opened (created .new empty rfl)
  have there : empty.topics.find? eventsTopic.name.asStr = some fresh :=
    (OrderedMap.find?_insert _ _ _ _).trans (if_pos rfl)
  obtain ⟨store, called, found⟩ := FileLogStore.append_located there
    (show fresh.partitions[0]? = some _ from rfl) (append_first record)
  have appends := appended empty (.ok _) store called
  exact ⟨store, @Tails.call _ _ _ _ _ _ _ _ _ _ _ (.append eventsTopic.name 0 [record] .epoch) _ made
    appends, found⟩

theorem tails_fetched {record : ProduceRecord} {store : FileLogStore}
    (tails : Tails answers FileLogStore.startOffset .new eventsTopic.name 0 0 store [] 0)
    (found : store.topics.find? eventsTopic.name.asStr = some {
      config := eventsTopic
      partitions := [{
        state := {
          segments := [Segment.holding 0 [.fromProduce record 0 .epoch]]
          startOffset := 0
          nextOffset := 1 }
        dir := {
          files := [(logPath 0, encode (.fromProduce record 0 .epoch))]
          removed := [] } }] })
    (fetched : ∀ result after,
      FileLogStore.handle [] (.fetch eventsTopic.name 0 0 2) store = some (result, after) →
      answers (.fetch eventsTopic.name 0 0 2) store result after) :
    ∃ after, Tails answers FileLogStore.startOffset .new eventsTopic.name 0 0 after
      [⟨0, 0, {
        records := readFrames decode (encode (.fromProduce record 0 .epoch)) 2 0
        nextOffset := nextAfter (readFrames decode (encode (.fromProduce record 0 .epoch)) 2 0) 0
        highWatermark := 1 }⟩]
      (nextAfter (readFrames decode (encode (.fromProduce record 0 .epoch)) 2 0) 0) := by
  have read : (Segment.holding 0 [.fromProduce record 0 .epoch]).readFrom 0 2
      { files := [(logPath 0, encode (.fromProduce record 0 .epoch))], removed := [] } =
      .ok (readFrames decode (encode (.fromProduce record 0 .epoch)) 2 0) := by
    have stored : Directory.read?
        { files := [(logPath 0, encode (.fromProduce record 0 .epoch))], removed := [] } (logPath 0) =
        some (encode (.fromProduce record 0 .epoch)) := List.lookup_cons_self
    have index : (Segment.holding 0 [Record.fromProduce record 0 .epoch]).index = [0] := rfl
    simp [Segment.readFrom, index, stored]
  have segments : PartitionState.fetchSegments 0
      { files := [(logPath 0, encode (.fromProduce record 0 .epoch))], removed := [] }
      [Segment.holding 0 [.fromProduce record 0 .epoch]] 2 =
      .ok (readFrames decode (encode (.fromProduce record 0 .epoch)) 2 0) := by
    simp [PartitionState.fetchSegments, read]
  have located : store.startOffset eventsTopic.name 0 = some 0 := by
    rw [FileLogStore.startOffset, found]
    rfl
  have called : (store.fetch eventsTopic.name 0 0 2).1 = .ok {
      records := readFrames decode (encode (.fromProduce record 0 .epoch)) 2 0
      nextOffset := nextAfter (readFrames decode (encode (.fromProduce record 0 .epoch)) 2 0) 0
      highWatermark := 1 } := by
    rw [FileLogStore.fetch, found]
    simp [PartitionState.fetch, segments]
  have handled : FileLogStore.handle [] (.fetch eventsTopic.name 0 0 2) store =
      some (_, (store.fetch eventsTopic.name 0 0 2).2) := congrArg some (Prod.ext called rfl)
  exact ⟨_, tails.poll (by decide) located (fetched _ _ handled)⟩

end Events

/-- A record fetched from the file store. -/
theorem following_misses_nothing_fetched :
    ∃ store poll cursor,
      Tails (fun request store answer after => Storable request ∧
          FileLogStore.handle [] request store = some (answer, after))
        FileLogStore.startOffset .new eventsTopic.name 0 0 store [poll] cursor ∧
      MissesNothing 0 [poll] cursor := by
  let answers := fun (request : StoreCall) (store : FileLogStore) (answer : request.Answer) after =>
    Storable request ∧ FileLogStore.handle [] request store = some (answer, after)
  have fits : Storable (.append eventsTopic.name 0 [{ key := none, payload := [1] }] .epoch) := by
    intro record member
    rw [List.mem_singleton.mp member]
    exact .keyless (by decide)
  obtain ⟨store, tails, found⟩ := tails_events answers { key := none, payload := [1] }
    (fun _ _ called => ⟨rfl, called⟩) (fun _ _ _ called => ⟨fits, called⟩)
  obtain ⟨after, run⟩ := tails_fetched answers tails found fun _ _ called => ⟨trivial, called⟩
  exact ⟨after, _, _, run, (following_misses_nothing eventsTopic.name 0 0).2 run⟩

def nulKey (size : Nat) : String := String.ofList (List.replicate size '\x00')

theorem asBytes_nulKey (size : Nat) : asBytes (nulKey size) = List.replicate size 0 := by
  rw [nulKey, asBytes_ofList]
  induction size with
  | zero => rfl
  | succ size ih => rw [List.replicate_succ, List.flatMap_cons, ih, List.replicate_succ]; rfl

/-- A key of `2 ^ 32` zero bytes is framed with the length zero, and its own
bytes read as further records at offset zero. -/
theorem encode_nulKey (size : Nat) (wraps : leBytes 4 (25 + size) = [0, 0, 0, 0]) :
    encode ⟨0, .epoch, some (nulKey (25 + size)), [1]⟩ =
      encode ⟨0, .epoch, some "", []⟩ ++ (encode ⟨0, .epoch, none, []⟩ ++
        (List.replicate size 0 ++ leBytes 4 1 ++ [1])) := by
  have split : List.replicate (25 + size) (0 : UInt8) =
      [0, 0, 0, 0] ++ (List.replicate 21 0 ++ List.replicate size 0) := by
    rw [List.replicate_append_replicate, show 25 + size = 4 + (21 + size) by omega]
    exact List.replicate_add 4 (21 + size) 0
  simp only [encode, encodeKey, asBytes_nulKey, List.length_replicate, wraps]
  simp only [split, List.append_assoc, List.cons_append, List.nil_append]
  rfl

theorem readFrames_nulKey {size : Nat} (wraps : leBytes 4 (25 + size) = [0, 0, 0, 0]) :
    readFrames decode (encode ⟨0, .epoch, some (nulKey (25 + size)), [1]⟩) 2 0 =
      [⟨0, .epoch, some "", []⟩, ⟨0, .epoch, none, []⟩] := by
  have keyed : Record.Fits ⟨0, .epoch, some "", []⟩ := by
    refine ⟨by decide, ?_, by decide⟩
    intro key present
    cases present
    decide
  have keyless : Record.Fits ⟨0, .epoch, none, []⟩ := ⟨by decide, nofun, by decide⟩
  have first := decode_selfDelimiting.extend (encode ⟨0, .epoch, none, []⟩ ++
    (List.replicate size 0 ++ leBytes 4 1 ++ [1])) (decode_encode keyed)
  have second := decode_selfDelimiting.shift (encode ⟨0, .epoch, some "", []⟩)
    (encode ⟨0, .epoch, none, []⟩ ++ (List.replicate size 0 ++ leBytes 4 1 ++ [1])) 0
  have third := decode_selfDelimiting.extend (List.replicate size 0 ++ leBytes 4 1 ++ [1])
    (decode_encode keyless)
  rw [third, Nat.add_zero] at second
  rw [encode_nulKey size wraps]
  simp only [readFrames, first, second, Option.map_some]
  rfl

/-- A record with such a key is returned more than once by a single fetch. -/
theorem following_repeats :
    ∃ store poll cursor,
      Tails (fun request store answer after => FileLogStore.handle [] request store = some (answer, after))
        FileLogStore.startOffset .new eventsTopic.name 0 0 store [poll] cursor ∧
      ¬ MissesNothing 0 [poll] cursor := by
  let answers := fun (request : StoreCall) (store : FileLogStore) (answer : request.Answer) after =>
    FileLogStore.handle [] request store = some (answer, after)
  have wraps : leBytes 4 (25 + (u32Modulus - 25)) = [0, 0, 0, 0] := by decide
  have frames := readFrames_nulKey wraps
  generalize nulKey (25 + (u32Modulus - 25)) = key at frames
  obtain ⟨store, tails, found⟩ := tails_events answers { key := some key, payload := [1] }
    (fun _ _ called => called) (fun _ _ _ called => called)
  obtain ⟨after, run⟩ := tails_fetched answers tails found fun _ _ called => called
  refine ⟨after, _, _, run, ?_⟩
  intro misses
  have ascending := misses.ascending
  simp [received, show readFrames decode (encode (.fromProduce ⟨some key, [1]⟩ 0 .epoch)) 2 0 = _
    from frames] at ascending

end ConnectForge.Infra
