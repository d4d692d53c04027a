import ConnectForge.Broker.Turns

namespace ConnectForge

open Data Interaction Infra

/-! Any number of `produce` calls at once, and what a subscriber to the bus sees
of a partition. -/

def recordsOn (batches : List Batch) (topic : TopicName) (partition : Nat) : List Record :=
  batches.flatMap fun batch =>
    if batch.topic = topic ∧ batch.partition = partition then batch.records else []

def LogEvent.recordsOn (topic : TopicName) (partition : Nat) : LogEvent → List Record
  | recordsAppended eventTopic eventPartition _ records =>
      if eventTopic = topic ∧ eventPartition = partition then records else []
  | _ => []

/-- The records the events of a partition carried, in order. -/
def announced (events : List LogEvent) (topic : TopicName) (partition : Nat) : List Record :=
  events.flatMap (LogEvent.recordsOn topic partition)

/-- Where a batch begins. -/
def Batch.base (batch : Batch) : Nat := (batch.records.head?.map Record.offset).getD Offset.zero

/-- The event `produce` publishes for a batch. -/
def Batch.announcement (batch : Batch) : LogEvent :=
  .recordsAppended batch.topic batch.partition batch.base batch.records

theorem recordsOn_append (batches : List Batch) (batch : Batch) (topic : TopicName) (partition : Nat) :
    recordsOn (batches ++ [batch]) topic partition = recordsOn batches topic partition ++
      if batch.topic = topic ∧ batch.partition = partition then batch.records else [] := by
  rw [recordsOn, List.flatMap_append, List.flatMap_singleton]
  rfl

theorem announced_append (events : List LogEvent) (event : LogEvent) (topic : TopicName)
    (partition : Nat) :
    announced (events ++ [event]) topic partition =
      announced events topic partition ++ event.recordsOn topic partition := by
  rw [announced, List.flatMap_append, List.flatMap_singleton]
  rfl

/-- A batch lies in its partition in one piece. -/
theorem Numbered.batch {first : Nat} {batches : List Batch} {batch : Batch}
    (numbered : Numbered first (recordsOn batches batch.topic batch.partition)) (member : batch ∈ batches) :
    Numbered batch.base batch.records := by
  obtain ⟨front, back, rfl⟩ := List.append_of_mem member
  rw [recordsOn, List.flatMap_append, List.flatMap_cons, if_pos ⟨rfl, rfl⟩] at numbered
  have own := (numbered_append.mp (numbered_append.mp numbered).2).1
  cases records : batch.records with
  | nil => exact .nil _
  | cons record rest =>
      rw [records] at own
      obtain ⟨base, _⟩ := numbered_cons.mp own
      rw [← base] at own
      rw [Batch.base, records]
      exact own

/-- What was announced is all that came before, if it is no more than that and
nothing that came before is missing. -/
theorem announced_eq {first : Nat} {records front rest seen : List Record}
    (numbered : Numbered first records) (split : records = front ++ rest) (begins : seen <+: records)
    (short : seen.length ≤ front.length)
    (complete : ∀ record ∈ records, record.offset < first + front.length → record ∈ seen) :
    seen = front := by
  have within : seen <+: front :=
    List.prefix_of_prefix_length_le begins (split ▸ List.prefix_append front rest) short
  obtain ⟨missing, whole⟩ := within
  rw [split] at numbered
  have earlier := (numbered_append.mp numbered).1
  cases missing with
  | nil => rwa [List.append_nil] at whole
  | cons record later =>
      have member : record ∈ front := by
        rw [← whole]
        simp
      have present : record ∈ seen :=
        complete record (by rw [split]; exact List.mem_append_left _ member) (earlier.bounds member).2
      rw [← whole] at earlier
      have ascending := List.pairwise_append.mp earlier.ascending
      exact absurd (ascending.2.2 record present record List.mem_cons_self) (Nat.lt_irrefl _)

namespace Live

/-- A batch that was stored and has yet to be announced. -/
structure Owed where
  topic : TopicName
  partition : Nat
  baseOffset : Nat
  records : List Record

def note (owed : Option Owed) : (request : EngineCall) → request.Answer → Option Owed
  | .store (.append topic partition _ _), .ok outcome => some {
      topic
      partition
      baseOffset := (produceResult outcome).baseOffset
      records := outcome.records }
  | .publish (.recordsAppended _ _ _ _), _ => none
  | _, _ => owed

def Permits (owed : Option Owed) : EngineCall → Prop
  | .store (.partitionCount _) => True
  | .store (.append _ _ records _) => owed = none ∧ records ≠ []
  | .store _ => False
  | .publish (.recordsAppended topic partition baseOffset records) =>
      owed = some { topic, partition, baseOffset, records }
  | _ => True

def Produces (program : EngineProgram (Except CoreError ProduceResult)) : Prop :=
  ∃ topic records, program = produce topic records

theorem follows_requireTopic (topic : TopicName) (owed : Option Owed) :
    (requireTopic topic).Follows Permits note (fun _ later => later = owed) owed := by
  refine (follows_storeCall (fun later => later = owed) (fun _ later => later = owed) ?_ rfl).bind ?_
  · rintro _ rfl
    exact follows_ask trivial fun _ => ⟨fun _ _ => rfl, fun _ _ => rfl⟩
  · rintro (reason | _ | count) later ⟨fine, failed⟩
    · exact failed _ rfl
    · exact fine _ rfl
    · exact fine _ rfl

theorem follows_route (key : Option String) (count : Nat) (owed : Option Owed) :
    (route key count).Follows Permits note (fun _ later => later = owed) owed := by
  unfold route
  cases key with
  | some key => rfl
  | none => exact ⟨trivial, fun _ => rfl⟩

theorem follows_announce (topic : TopicName) (partition : Nat) (outcome : AppendOutcome) :
    (announce topic partition outcome).Follows Permits note (fun _ owed => owed = none)
      (some ⟨topic, partition, (produceResult outcome).baseOffset, outcome.records⟩) := by
  refine ⟨rfl, fun _ => ?_⟩
  cases truncated : outcome.truncatedTo with
  | none => exact rfl
  | some newStart => exact ⟨trivial, fun _ => rfl⟩

theorem follows_produce (topic : TopicName) (records : List ProduceRecord) :
    (produce topic records).Follows Permits note (fun _ owed => owed = none) none := by
  unfold produce
  split
  · trivial
  rename_i nonempty
  refine follows_call trivial fun admitted => ?_
  split
  · trivial
  split
  · trivial
  refine (follows_requireTopic topic none).bind ?_
  rintro (reason | count) _ rfl
  · trivial
  refine (follows_route _ count none).bind ?_
  rintro partition _ rfl
  refine follows_call trivial fun timestamp => ?_
  refine (follows_storeCall (fun later => later = none) (fun outcome later => later =
    some ⟨topic, partition, (produceResult outcome).baseOffset, outcome.records⟩) ?_ rfl).bind ?_
  · rintro _ rfl
    refine follows_ask ⟨rfl, by simpa using nonempty⟩ ?_
    rintro (reason | outcome)
    · exact ⟨nofun, fun _ _ => rfl⟩
    · refine ⟨?_, nofun⟩
      intro value same
      cases same
      rfl
  rintro (reason | outcome) later ⟨stored, failed⟩
  · exact failed reason rfl
  rw [stored outcome rfl]
  exact (follows_announce topic partition outcome).bind fun _ _ cleared => cleared

variable {model : LogStoreModel} (first : TopicName → Nat → Nat)

/-- What was announced of a partition begins what it was given, numbered from
where the partition stood at first. -/
structure Replays (broker : Broker model) : Prop where
  stored : ∃ view, model.Shows broker.store view ∧ ∀ topic partition log,
    view.log? topic partition = some log →
      log.next = first topic partition + (recordsOn broker.appended topic partition).length
  numbered : ∀ topic partition,
    Numbered (first topic partition) (recordsOn broker.appended topic partition)
  begins : ∀ topic partition,
    announced broker.published topic partition <+: recordsOn broker.appended topic partition

def Waits (broker : Broker model) : Option Owed → Prop
  | none => True
  | some owed => owed.records ≠ [] ∧ ∃ front back,
      recordsOn broker.appended owed.topic owed.partition = front ++ (owed.records ++ back) ∧
      owed.baseOffset = first owed.topic owed.partition + front.length ∧
      (announced broker.published owed.topic owed.partition).length ≤ front.length

/-- Two batches that are owed at once do not overlap. -/
def Apart : Option Owed → Option Owed → Prop
  | some left, some right => left.topic = right.topic → left.partition = right.partition →
      left.baseOffset + left.records.length ≤ right.baseOffset ∨
        right.baseOffset + right.records.length ≤ left.baseOffset
  | _, _ => True

theorem Apart.symm {left right : Option Owed} (apart : Apart left right) : Apart right left := by
  cases left with
  | none => cases right <;> trivial
  | some left =>
      cases right with
      | none => trivial
      | some right => exact fun topics partitions => (apart topics.symm partitions.symm).symm

theorem Apart.none_left (other : Option Owed) : Apart none other := by
  cases other <;> trivial

variable {first} {broker after : Broker model} {topic : TopicName} {partition : Nat}

section Quiet

/-! Steps that neither store nor announce records. -/

theorem Waits.same {owed : Option Owed} (waits : Waits first broker owed)
    (appended : after.appended = broker.appended)
    (seen : ∀ topic partition,
      announced after.published topic partition = announced broker.published topic partition) :
    Waits first after owed := by
  cases owed with
  | none => trivial
  | some owed =>
      obtain ⟨nonempty, front, back, split, base, short⟩ := waits
      exact ⟨nonempty, front, back, appended ▸ split, base, (seen _ _).symm ▸ short⟩

theorem Replays.same (replays : Replays first broker) {view : StoreView}
    (shows : model.Shows after.store view)
    (kept : ∀ topic partition log, view.log? topic partition = some log →
      log.next = first topic partition + (recordsOn broker.appended topic partition).length)
    (appended : after.appended = broker.appended)
    (seen : ∀ topic partition,
      announced after.published topic partition = announced broker.published topic partition) :
    Replays first after where
  stored := ⟨view, shows, appended ▸ kept⟩
  numbered := appended ▸ replays.numbered
  begins topic partition := by
    rw [seen, appended]
    exact replays.begins topic partition

end Quiet

section Storing

/-! A batch is stored. -/

variable {batch : List ProduceRecord} {records : List Record}
  (grown : after.appended = broker.appended ++ [{ topic, partition, submitted := batch, records }])
  (quiet : after.published = broker.published)

include grown

theorem recordsOn_stored (other : TopicName) (wanted : Nat) :
    recordsOn after.appended other wanted = recordsOn broker.appended other wanted ++
      if topic = other ∧ partition = wanted then records else [] := by
  rw [grown, recordsOn_append]

include quiet

theorem Waits.stored {owed : Option Owed} (waits : Waits first broker owed) : Waits first after owed := by
  cases owed with
  | none => trivial
  | some owed =>
      obtain ⟨nonempty, front, back, split, base, short⟩ := waits
      refine ⟨nonempty, front, back ++ if topic = owed.topic ∧ partition = owed.partition then records
        else [], ?_, base, quiet ▸ short⟩
      rw [recordsOn_stored grown, split]
      simp only [List.append_assoc]

theorem Replays.owes (replays : Replays first broker) (nonempty : records ≠ []) :
    Waits first after (some ⟨topic, partition,
      first topic partition + (recordsOn broker.appended topic partition).length, records⟩) := by
  refine ⟨nonempty, recordsOn broker.appended topic partition, [], ?_, rfl, ?_⟩
  · rw [recordsOn_stored grown, if_pos ⟨rfl, rfl⟩, List.append_nil]
  · rw [quiet]
    exact (replays.begins topic partition).length_le

theorem Replays.stores (replays : Replays first broker)
    (numbered : Numbered (first topic partition + (recordsOn broker.appended topic partition).length)
      records) {view : StoreView} (shows : model.Shows after.store view)
    (kept : ∀ other wanted log, view.log? other wanted = some log →
      log.next = first other wanted + (recordsOn after.appended other wanted).length) :
    Replays first after where
  stored := ⟨view, shows, kept⟩
  numbered := by
    intro other wanted
    rw [recordsOn_stored grown]
    by_cases here : topic = other ∧ partition = wanted
    · obtain ⟨rfl, rfl⟩ := here
      rw [if_pos ⟨rfl, rfl⟩]
      exact numbered_append.mpr ⟨replays.numbered topic partition, numbered⟩
    · rw [if_neg here, List.append_nil]
      exact replays.numbered other wanted
  begins := by
    intro other wanted
    rw [quiet, recordsOn_stored grown]
    exact (replays.begins other wanted).trans (List.prefix_append _ _)

omit grown quiet

theorem Waits.apart {owed : Option Owed} (waits : Waits first broker owed) :
    Apart (some ⟨topic, partition,
      first topic partition + (recordsOn broker.appended topic partition).length, records⟩) owed := by
  cases owed with
  | none => trivial
  | some owed =>
      obtain ⟨_, front, back, split, base, _⟩ := waits
      rintro rfl rfl
      right
      have length := congrArg List.length split
      simp only [List.length_append] at length
      change owed.baseOffset + owed.records.length ≤ first owed.topic owed.partition + _
      omega

end Storing

section Announcing

/-! A batch is announced. -/

/-- A batch is announced after those its partition was given before it. -/
def InOrder (broker : Broker model) (_ : Option Owed) : EngineCall → Prop
  | .publish (.recordsAppended topic partition baseOffset _) =>
      ∀ batch ∈ broker.appended, batch.topic = topic → batch.partition = partition →
        batch.base < baseOffset → batch.announcement ∈ broker.published
  | _ => True

theorem InOrder.complete {start baseOffset : Nat} {records : List Record}
    (numbered : Numbered start (recordsOn broker.appended topic partition))
    (ordered : InOrder broker none (.publish (.recordsAppended topic partition baseOffset records))) :
    ∀ record ∈ recordsOn broker.appended topic partition, record.offset < baseOffset →
      record ∈ announced broker.published topic partition := by
  intro record member below
  obtain ⟨batch, appended, among⟩ := List.mem_flatMap.mp member
  split at among
  case isFalse => cases among
  rename_i here
  obtain ⟨rfl, rfl⟩ := here
  have told := ordered batch appended rfl rfl
    (Nat.lt_of_le_of_lt ((numbered.batch appended).bounds among).1 below)
  refine List.mem_flatMap.mpr ⟨_, told, ?_⟩
  change record ∈ if _ then batch.records else []
  rwa [if_pos ⟨rfl, rfl⟩]

variable {baseOffset : Nat} {records : List Record}
  (told : after.published = broker.published ++ [.recordsAppended topic partition baseOffset records])
  (same : after.appended = broker.appended)

theorem Waits.next (replays : Replays first broker)
    (waits : Waits first broker (some { topic, partition, baseOffset, records }))
    (ordered : InOrder broker none (.publish (.recordsAppended topic partition baseOffset records))) :
    baseOffset = first topic partition + (announced broker.published topic partition).length ∧
      announced broker.published topic partition ++ records <+:
        recordsOn broker.appended topic partition := by
  obtain ⟨_, front, back, split, base, short⟩ := waits
  dsimp only at split base short
  have all := announced_eq (replays.numbered topic partition) split (replays.begins topic partition) short
    (base ▸ InOrder.complete (replays.numbered topic partition) ordered)
  rw [all]
  refine ⟨base, ?_⟩
  rw [split, ← List.append_assoc]
  exact List.prefix_append _ back

include told

theorem announced_told (other : TopicName) (wanted : Nat) :
    announced after.published other wanted = announced broker.published other wanted ++
      if topic = other ∧ partition = wanted then records else [] := by
  rw [told, announced_append]
  rfl

include same

theorem Waits.announces {owed : Option Owed} (waits : Waits first broker owed)
    (next : baseOffset = first topic partition + (announced broker.published topic partition).length)
    (apart : Apart (some { topic, partition, baseOffset, records }) owed) : Waits first after owed := by
  cases owed with
  | none => trivial
  | some owed =>
      obtain ⟨nonempty, front, back, split, base, short⟩ := waits
      refine ⟨nonempty, front, back, same ▸ split, base, ?_⟩
      rw [announced_told told]
      split
      · rename_i here
        obtain ⟨rfl, rfl⟩ := here
        have positive := List.length_pos_iff.mpr nonempty
        have disjoint := apart rfl rfl
        rw [List.length_append]
        dsimp only at disjoint
        omega
      · rw [List.append_nil]
        exact short

theorem Replays.tells (replays : Replays first broker)
    (longer : announced broker.published topic partition ++ records <+:
      recordsOn broker.appended topic partition) (sameStore : after.store = broker.store) :
    Replays first after where
  stored := by
    rw [sameStore, same]
    exact replays.stored
  numbered := same ▸ replays.numbered
  begins := by
    intro other wanted
    rw [announced_told told, same]
    split
    · rename_i here
      obtain ⟨rfl, rfl⟩ := here
      exact longer
    · rw [List.append_nil]
      exact replays.begins other wanted

end Announcing

/-- What a step has to keep, for the call that takes it and for any other. -/
def Kept (first : TopicName → Nat → Nat) (broker after : Broker model) (owed later : Option Owed) : Prop :=
  Replays first after ∧ Waits first after later ∧ ∀ other, Waits first broker other →
    Apart owed other → Waits first after other ∧ Apart later other

theorem Replays.idles (replays : Replays first broker) {owed : Option Owed}
    (waits : Waits first broker owed) {view : StoreView} (shows : model.Shows after.store view)
    (kept : ∀ topic partition log, view.log? topic partition = some log →
      log.next = first topic partition + (recordsOn broker.appended topic partition).length)
    (appended : after.appended = broker.appended)
    (seen : ∀ topic partition,
      announced after.published topic partition = announced broker.published topic partition) :
    Kept first broker after owed owed :=
  ⟨replays.same shows kept appended seen, waits.same appended seen,
    fun _ other apart => ⟨other.same appended seen, apart⟩⟩

theorem produceResult_base {outcome : AppendOutcome} {next : Nat}
    (numbered : Numbered next outcome.records) (nonempty : outcome.records ≠ []) :
    (produceResult outcome).baseOffset = next := by
  unfold produceResult
  cases records : outcome.records with
  | nil => exact absurd records nonempty
  | cons record rest =>
      rw [records] at numbered
      have head : (record :: rest)[0]? = some record := rfl
      exact numbered.getElem? head

theorem Replays.appends (replays : Replays first broker) {owed : Option Owed}
    (waits : Waits first broker owed) {batch : List ProduceRecord} {timestamp : DateTime}
    {answer : Except PortError AppendOutcome} (nonempty : batch ≠ [])
    (answered : Broker.Answers (.store (.append topic partition batch timestamp)) broker answer after) :
    Kept first broker after owed (note owed (.store (.append topic partition batch timestamp)) answer) := by
  obtain ⟨view, shows, kept⟩ := replays.stored
  obtain ⟨answers, _, grown, quiet⟩ := answered
  obtain ⟨_, refused | taken, shows'⟩ := model.step shows answers
  · obtain ⟨⟨reason, rfl⟩, rfl⟩ := refused
    change after.appended = broker.appended ++ [] at grown
    rw [List.append_nil] at grown
    exact replays.idles waits shows' kept grown fun _ _ => by rw [quiet]
  · obtain ⟨state, log, outcome, later, found, here, rfl, numbers, appends, rfl⟩ := taken
    change after.appended = broker.appended ++
      [{ topic, partition, submitted := batch, records := outcome.records }] at grown
    obtain ⟨length, numbered, _⟩ := materialize_numbered numbers
    have located : view.log? topic partition = some log := by
      rw [StoreView.log?, found, Option.bind_some, here]
    have next := kept topic partition log located
    have filled : outcome.records ≠ [] := by
      rintro none
      rw [none] at length
      exact nonempty (List.eq_nil_of_length_eq_zero length.symm)
    have base := produceResult_base numbered filled
    rw [next] at base numbered
    have counts : ∀ other wanted shown,
        StoreView.log? (view.insert topic.asStr { state with
          partitions := state.partitions.set partition later }) other wanted = some shown →
        shown.next = first other wanted + (recordsOn after.appended other wanted).length := by
      intro other wanted shown present
      rw [StoreView.log?_update found here] at present
      rw [recordsOn_stored grown, List.length_append]
      by_cases there : other = topic ∧ wanted = partition
      · obtain ⟨rfl, rfl⟩ := there
        rw [if_pos ⟨rfl, rfl⟩] at present ⊢
        cases present
        rw [appends.next, next, List.length_map, Nat.add_assoc]
      · rw [if_neg there] at present
        rw [if_neg fun both => there ⟨both.1.symm, both.2.symm⟩]
        exact kept other wanted shown present
    refine ⟨replays.stores grown quiet numbered shows' counts, ?_, ?_⟩
    · change Waits first after (some ⟨topic, partition, (produceResult outcome).baseOffset, outcome.records⟩)
      rw [base]
      exact replays.owes grown quiet filled
    · intro other otherWaits _
      refine ⟨otherWaits.stored grown quiet, ?_⟩
      change Apart (some ⟨topic, partition, (produceResult outcome).baseOffset, outcome.records⟩) other
      rw [base]
      exact otherWaits.apart

theorem Replays.publishes (replays : Replays first broker) {owed : Option Owed}
    (waits : Waits first broker owed) {event : LogEvent} {answer : Except PortError Unit}
    (permitted : Permits owed (.publish event)) (ordered : InOrder broker owed (.publish event))
    (answered : Broker.Answers (.publish event) broker answer after) :
    Kept first broker after owed (note owed (.publish event) answer) := by
  obtain ⟨_, published⟩ := answered
  have told : after.published = broker.published ++ [event] := by rw [published]
  have same : after.appended = broker.appended := by rw [published]
  have sameStore : after.store = broker.store := by rw [published]
  obtain ⟨view, shows, kept⟩ := replays.stored
  rw [← sameStore] at shows
  have silent : (∀ topic partition, event.recordsOn topic partition = []) → ∀ topic partition,
      announced after.published topic partition = announced broker.published topic partition := by
    intro nothing topic partition
    rw [told, announced_append, nothing, List.append_nil]
  cases event with
  | topicCreated topic partitions =>
      exact replays.idles waits shows kept same (silent fun _ _ => rfl)
  | recordsTruncated topic partition newStart =>
      exact replays.idles waits shows kept same (silent fun _ _ => rfl)
  | recordsAppended topic partition baseOffset records =>
      cases permitted
      obtain ⟨next, longer⟩ := waits.next replays ordered
      exact ⟨replays.tells told same longer sameStore, trivial,
        fun other otherWaits apart => ⟨otherWaits.announces told same next apart, .none_left other⟩⟩

theorem sound (model : LogStoreModel) (first : TopicName → Nat → Nat) :
    Tasks.Sound (@Broker.Answers model) note none Produces InOrder Permits (fun _ owed => owed = none)
      (Replays first) (Waits first) Apart where
  follows := by
    rintro _ ⟨topic, records, rfl⟩
    exact follows_produce topic records
  spawn _ _ := ⟨trivial, Apart.none_left⟩
  symmetric apart := apart.symm
  step := by
    intro broker after owed request answer replays waits permitted ordered answered
    obtain ⟨view, shows, kept⟩ := replays.stored
    cases request with
    | store request =>
        cases request with
        | append topic partition batch timestamp => exact replays.appends waits permitted.2 answered
        | partitionCount topic =>
            obtain ⟨answers, _, grown, quiet⟩ := answered
            obtain ⟨_, ⟨_, rfl⟩, shows'⟩ := model.step shows answers
            change after.appended = broker.appended ++ [] at grown
            rw [List.append_nil] at grown
            exact replays.idles waits shows' kept grown fun _ _ => by rw [quiet]
        | createTopic config => cases permitted
        | topics => cases permitted
        | fetch topic partition start max => cases permitted
        | stats => cases permitted
    | publish event => exact replays.publishes waits permitted ordered answered
    | nextSlot =>
        obtain ⟨_, rfl⟩ := answered
        exact replays.idles waits shows kept rfl fun _ _ => rfl
    | tryAcquire count =>
        cases answered
        exact replays.idles waits shows kept rfl fun _ _ => rfl
    | now =>
        cases answered
        exact replays.idles waits shows kept rfl fun _ _ => rfl

end Live

/-- However `produce` calls interleave: if each announces its batch after
everything below it, the events of a partition carry the beginning of what it was
given since, numbered from where it stood. -/
theorem events_replay {model : LogStoreModel} {broker : Broker model} {view : StoreView}
    (shows : model.Shows broker.store view) (unused : broker.appended = []) (silent : broker.published = [])
    {state : Tasks (Broker model) (Option Live.Owed) EngineCall EngineCall.Answer
      (Except CoreError ProduceResult)}
    (reached : Tasks.Reaches Broker.Answers Live.note none Live.Produces Live.InOrder broker state)
    (topic : TopicName) (partition : Nat) :
    announced state.world.published topic partition <+:
        recordsOn state.world.appended topic partition ∧
      Numbered ((view.log? topic partition).elim 0 PartitionLog.next)
        (recordsOn state.world.appended topic partition) := by
  let first : TopicName → Nat → Nat :=
    fun topic partition => (view.log? topic partition).elim 0 PartitionLog.next
  have start : Live.Replays first broker := by
    refine ⟨⟨view, shows, ?_⟩, ?_, ?_⟩
    · intro other wanted log found
      rw [unused]
      simp only [first, found]
      rfl
    · intro other wanted
      rw [unused]
      exact .nil _
    · intro other wanted
      rw [silent]
      exact List.nil_prefix
  have replays := ((Live.sound model first).reaches start reached).world
  exact ⟨replays.begins topic partition, replays.numbered topic partition⟩

def soloStore (part : Partition) (produced : Nat) : MemoryLogStore where
  topics := OrderedMap.empty.insert soloTopic.name.asStr { config := soloTopic, partitions := [part] }
  producedTotal := produced
  fetchedTotal := 0

theorem soloStore_shown : ∃ view, memoryStore.Shows (soloStore .default 0) view := by
  have creates : memoryStore.answers (.createTopic soloTopic) memoryStore.new (.ok true)
      (soloStore .default 0) := rfl
  obtain ⟨view, _, shows⟩ := memoryStore.step memoryStore.fresh creates
  exact ⟨view, shows⟩

def soloBroker (part : Partition) (produced slot : Nat) (batches : List Batch) : Broker memoryStore :=
  ⟨soloStore part produced, slot, batches, []⟩

theorem Live.stores_plain {allowed : Broker memoryStore → Option Live.Owed → EngineCall → Prop}
    (free : ∀ broker owed request, (∀ event, request ≠ .publish event) → allowed broker owed request)
    {start : Broker memoryStore}
    (before : List (Task (Option Live.Owed) EngineCall EngineCall.Answer
      (Except CoreError ProduceResult)))
    {rest : List (Task (Option Live.Owed) EngineCall EngineCall.Answer (Except CoreError ProduceResult))}
    {part : Partition} {produced slot : Nat} {batches : List Batch} (later : Partition)
    (count offset : Nat)
    (reached : Tasks.Reaches Broker.Answers Live.note none Live.Produces allowed start
      ⟨soloBroker part produced slot batches,
        before ++ ⟨none, produce soloTopic.name plainBatch⟩ :: rest⟩)
    (appends : memoryStore.answers (.append soloTopic.name (slot % 1) plainBatch .epoch)
      (soloStore part produced) (.ok ⟨[plainRecord offset], none⟩) (soloStore later count)) :
    Tasks.Reaches Broker.Answers Live.note none Live.Produces allowed start
      ⟨soloBroker later count ((slot + 1) % u64Modulus)
          (batches ++ [⟨soloTopic.name, slot % 1, plainBatch, [plainRecord offset]⟩]),
        before ++ ⟨some ⟨soloTopic.name, slot % 1, offset, [plainRecord offset]⟩,
          .call (.publish (.recordsAppended soloTopic.name (slot % 1) offset [plainRecord offset]))
            fun _ => .done (.ok (produceResult ⟨[plainRecord offset], none⟩))⟩ :: rest⟩ := by
  let broker := soloBroker part produced slot batches
  let routedBroker := soloBroker part produced ((slot + 1) % u64Modulus) batches
  have counts : Broker.Answers (.store (.partitionCount soloTopic.name)) broker (.ok (some 1)) broker :=
    ⟨rfl, rfl, (List.append_nil _).symm, rfl⟩
  have routes : Broker.Answers .nextSlot broker slot routedBroker := ⟨rfl, rfl⟩
  have times : Broker.Answers .now routedBroker .epoch routedBroker := rfl
  have stores : Broker.Answers (.store (.append soloTopic.name (slot % 1) plainBatch .epoch)) routedBroker
      (.ok ⟨[plainRecord offset], none⟩) (soloBroker later count ((slot + 1) % u64Modulus)
        (batches ++ [⟨soloTopic.name, slot % 1, plainBatch, [plainRecord offset]⟩])) :=
    ⟨appends, rfl, rfl, rfl⟩
  have admitted := Tasks.Reaches.answer before reached (free _ _ _ nofun)
    (show Broker.Answers (.tryAcquire 1) broker true broker from rfl)
  have counted := Tasks.Reaches.answer before admitted (free _ _ _ nofun) counts
  have routed := Tasks.Reaches.answer before counted (free _ _ _ nofun) routes
  have timed := Tasks.Reaches.answer before routed (free _ _ _ nofun) times
  exact Tasks.Reaches.answer before timed (free _ _ _ nofun) stores

/-- Two calls have stored a record each, and this was published. -/
def pairBroker (published : List LogEvent) : Broker memoryStore :=
  { soloBroker ⟨[plainRecord 0, plainRecord 1], 0, 2, 1, 2⟩ 2 2
      [⟨soloTopic.name, 0, plainBatch, [plainRecord 0]⟩, ⟨soloTopic.name, 0, plainBatch, [plainRecord 1]⟩] with
    published }

def plainEvent (offset : Nat) : LogEvent :=
  .recordsAppended soloTopic.name 0 offset [plainRecord offset]

/-- Two calls at once, each of which has stored a record and not announced it. -/
theorem Live.pair_stored {allowed : Broker memoryStore → Option Owed → EngineCall → Prop}
    (free : ∀ broker owed request, (∀ event, request ≠ .publish event) → allowed broker owed request) :
    Tasks.Reaches Broker.Answers note none Produces allowed (soloBroker .default 0 0 [])
      ⟨pairBroker [], [
        ⟨some ⟨soloTopic.name, 0, 0, [plainRecord 0]⟩, .call (.publish (plainEvent 0))
          fun _ => .done (.ok (produceResult ⟨[plainRecord 0], none⟩))⟩,
        ⟨some ⟨soloTopic.name, 0, 1, [plainRecord 1]⟩, .call (.publish (plainEvent 1))
          fun _ => .done (.ok (produceResult ⟨[plainRecord 1], none⟩))⟩]⟩ := by
  have spawned : Tasks.Reaches Broker.Answers note none Produces allowed
      (soloBroker .default 0 0 []) ⟨soloBroker .default 0 0 [],
        [⟨none, produce soloTopic.name plainBatch⟩, ⟨none, produce soloTopic.name plainBatch⟩]⟩ :=
    Tasks.Reaches.start (Tasks.Reaches.start .refl ⟨_, _, rfl⟩) ⟨_, _, rfl⟩
  have once := stores_plain free [] ⟨[plainRecord 0], 0, 1, 1, 1⟩ 1 0 spawned rfl
  exact stores_plain free [_] ⟨[plainRecord 0, plainRecord 1], 0, 2, 1, 2⟩ 2 1 once rfl

/-- Both announce their records, the first one first, and return. -/
theorem Live.pair_announced {allowed : Broker memoryStore → Option Owed → EngineCall → Prop}
    (free : ∀ broker owed request, (∀ event, request ≠ .publish event) → allowed broker owed request)
    (first : ∀ owed, allowed (pairBroker []) owed (.publish (plainEvent 0)))
    (second : ∀ owed, allowed (pairBroker [plainEvent 0]) owed (.publish (plainEvent 1))) :
    ∃ state : Tasks (Broker memoryStore) (Option Owed) EngineCall EngineCall.Answer
        (Except CoreError ProduceResult),
      Tasks.Reaches Broker.Answers note none Produces allowed (soloBroker .default 0 0 []) state ∧
      (∀ task ∈ state.tasks, ∃ result, task.program = .done result) ∧
      state.world = pairBroker [plainEvent 0, plainEvent 1] := by
  have once := Tasks.Reaches.answer [] (pair_stored free) (first _) ⟨rfl, rfl⟩
  have twice := Tasks.Reaches.answer [_] once (second _) ⟨rfl, rfl⟩
  refine ⟨_, twice, ?_, rfl⟩
  intro task member
  rcases List.mem_cons.mp member with rfl | other
  · exact ⟨_, rfl⟩
  · cases List.mem_singleton.mp other
    exact ⟨_, rfl⟩

theorem Live.InOrder.quiet (broker : Broker memoryStore) (owed : Option Owed) (request : EngineCall)
    (quiet : ∀ event, request ≠ .publish event) : InOrder broker owed request := by
  cases request with
  | publish event => exact absurd rfl (quiet event)
  | _ => trivial

theorem Live.pair_inOrder :
    (∀ owed, InOrder (pairBroker []) owed (.publish (plainEvent 0))) ∧
      ∀ owed, InOrder (pairBroker [plainEvent 0]) owed (.publish (plainEvent 1)) := by
  refine ⟨fun _ _ _ _ _ below => absurd below (Nat.not_lt_zero _), ?_⟩
  intro owed batch member _ _ below
  rcases List.mem_cons.mp member with rfl | other
  · exact List.mem_singleton_self _
  · cases List.mem_singleton.mp other
    exact absurd below (Nat.lt_irrefl _)

/-- Two calls that store a record each, and the second announces its own
first. -/
theorem events_overtake :
    ∃ (broker : Broker memoryStore) (view : StoreView)
      (state : Tasks (Broker memoryStore) (Option Live.Owed) EngineCall EngineCall.Answer
        (Except CoreError ProduceResult)),
      memoryStore.Shows broker.store view ∧ broker.appended = [] ∧ broker.published = [] ∧
      Tasks.Reaches Broker.Answers Live.note none Live.Produces (fun _ _ _ => True) broker state ∧
      ¬ announced state.world.published soloTopic.name 0 <+:
        recordsOn state.world.appended soloTopic.name 0 := by
  obtain ⟨view, shows⟩ := soloStore_shown
  have overtaken := Tasks.Reaches.answer [_] (Live.pair_stored fun _ _ _ _ => trivial) trivial ⟨rfl, rfl⟩
  exact ⟨_, view, _, shows, rfl, rfl, overtaken, by decide⟩

/-- Two overlapping calls that store a record each and announce them in order. -/
theorem events_replay_pair :
    ∃ state : Tasks (Broker memoryStore) (Option Live.Owed) EngineCall EngineCall.Answer
        (Except CoreError ProduceResult),
      Tasks.Reaches Broker.Answers Live.note none Live.Produces Live.InOrder (soloBroker .default 0 0 [])
        state ∧
      announced state.world.published soloTopic.name 0 = [plainRecord 0, plainRecord 1] ∧
      announced state.world.published soloTopic.name 0 <+:
          recordsOn state.world.appended soloTopic.name 0 ∧
        Numbered 0 (recordsOn state.world.appended soloTopic.name 0) := by
  obtain ⟨view, shows⟩ := soloStore_shown
  obtain ⟨state, reached, _, same⟩ :=
    Live.pair_announced Live.InOrder.quiet Live.pair_inOrder.1 Live.pair_inOrder.2
  have replays := events_replay shows rfl rfl reached soloTopic.name 0
  refine ⟨state, reached, ?_, replays.1, ?_⟩
  · rw [same]
    decide
  · rw [same]
    rfl

end ConnectForge
