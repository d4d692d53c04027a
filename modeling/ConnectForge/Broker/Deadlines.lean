import ConnectForge.Broker.History
import ConnectForge.Broker.Subscribers
import ConnectForge.Interaction.Deadlines

namespace ConnectForge

open Data Interaction

/-! The engine under its deadlines.  A storage call that takes too long is given
up, with whatever is still to be tried, and its caller returns a time-out.  The
store works on threads of its own, so an attempt that was given up may still be
carried out, at any time or never.  A deadline that passes between two attempts is
one that passes in the second, which is then never carried out. -/

abbrev TimedProgram := Program EngineCall fun request => Option request.Answer

def underDeadlines {α : Type} (program : EngineProgram (Except CoreError α)) :
    TimedProgram (Except CoreError α) := program.expiring (.error .timeout)

/-- The deadline is that of the storage call: it ends with the time-out, and the
engine returns this as it returns any error of a storage call. -/
theorem underDeadlines_storeCall {α β : Type} {op : EngineProgram (Except PortError α)}
    {next : Except CoreError α → EngineProgram (Except CoreError β)}
    (returns : next (.error .timeout) = .done (.error .timeout)) :
    underDeadlines (storeCall op >>= next) =
      underDeadlines (storeCall op) >>= fun result => underDeadlines (next result) :=
  Program.expiring_bind returns

def EngineCall.HasDeadline : EngineCall → Prop
  | .store _ => True
  | _ => False

def EngineCall.entries : (request : EngineCall) → request.Answer → List Batch
  | .store request, answer => taken request answer
  | _, _ => []

/-- A batch, as its producer sends it. -/
abbrev Sent := TopicName × List ProduceRecord

def EngineCall.sends : EngineCall → Multiset Sent
  | .store (.append topic _ records _) => {(topic, records)}
  | _ => 0

def Batch.sent (batch : Batch) : Sent := (batch.topic, batch.submitted)

/-- A broker with the attempts in it that were given up. -/
abbrev LateBroker (model : LogStoreModel) := Backlog (Broker model) EngineCall Batch

namespace LateBroker

variable {model : LogStoreModel}

def Answers :
    (request : EngineCall) → LateBroker model → Option request.Answer → LateBroker model → Prop :=
  Backlog.Answers Broker.Answers EngineCall.HasDeadline

def Later : LateBroker model → LateBroker model → Prop :=
  Backlog.Later Broker.Answers EngineCall.HasDeadline EngineCall.entries

def Others : LateBroker model → LateBroker model → Prop :=
  Backlog.Others Broker.Answers EngineCall.HasDeadline EngineCall.entries

end LateBroker

/-- What was acknowledged under deadlines is read under deadlines, whatever others
do and whatever becomes of calls that were given up: every later fetch that covers a
record of the batch and returns in time returns it, until it is pruned. -/
theorem timely_round_trip {model : LogStoreModel} {late middle : LateBroker model}
    (recalled : late.world.Recalled) {topic : TopicName} {batch : List ProduceRecord}
    {result : ProduceResult}
    (produced : Ends (Amid LateBroker.Others LateBroker.Answers) (underDeadlines (produce topic batch)) late
      (.ok result) middle) :
    ∃ partition records, middle.world.Placed topic partition batch result records ∧
      ∀ (engine : LogConfig) {next after : LateBroker model} {start max : Nat} {found : FetchResult},
        LateBroker.Others middle next →
        Ends (Amid LateBroker.Others LateBroker.Answers)
          (underDeadlines (engine.fetch topic partition start max)) next (.ok found) after →
        ∀ record ∈ records, start ≤ record.offset → record.offset < start + engine.fetchLimit max →
          after.world.trimmed topic partition ≤ record.offset →
          model.readBack record ∈ found.records := by
  have produces := Backlog.ends_of_expiring produced nofun
  obtain ⟨partition, records, placed, _⟩ := Broker.produce_places recalled produces
  refine ⟨partition, records, placed, ?_⟩
  intro engine next after start max found moves fetched record member low high kept
  have between : middle.world.Others next.world := Backlog.Others.world moves
  have now := recalled.trans ((Broker.Others.ended produces).trans between)
  exact (placed.lies.others between).read placed.numbered now (Backlog.ends_of_expiring fetched nofun) member
    low high kept

open Infra in
/-- A batch that is acknowledged in time, between an append that was given up and its
late arrival. -/
theorem timely_round_trip_late :
    ∃ (late middle next after : LateBroker memoryStore) (result : ProduceResult) (found : FetchResult),
      Ends (Amid LateBroker.Others LateBroker.Answers) (underDeadlines (produce soloTopic.name plainBatch)) late
        (.ok result) middle ∧
      LateBroker.Others middle next ∧ late.jobs ≠ [] ∧ next.jobs = [] ∧
      Ends (Amid LateBroker.Others LateBroker.Answers)
        (underDeadlines (smallEngine.fetch soloTopic.name 0 0 3)) next (.ok found) after ∧
      ∃ record ∈ found.records, record.submitted = { key := none, payload := [1] } := by
  let append : EngineCall := .store (.append soloTopic.name 0 plainBatch .epoch)
  let late : LateBroker memoryStore := ⟨soloBroker .default 0 0 [], [append], [append], []⟩
  obtain ⟨⟨store, slot, batches, events⟩, produced, stored, _, appended⟩ :=
    @Broker.produce_runs memoryStore late.world soloTopic.name (soloStore ⟨[plainRecord 0], 0, 1, 1, 1⟩ 1)
      late.world.store plainBatch 1 ⟨[plainRecord 0], none⟩ (by decide) rfl rfl rfl
  dsimp only at stored appended
  subst stored
  have timely := @Ends.amid _ _ _ _ LateBroker.Others _ _ _ _ _ (fun _ => .refl)
    (@Backlog.ends_in_time _ _ _ _ Batch _ EngineCall.HasDeadline (.error .timeout) _ _ _ _ late.jobs late.cut []
      produced)
  obtain ⟨partition, records, placed, read⟩ := timely_round_trip soloBroker_recalled timely
  let again : Batch := ⟨soloTopic.name, 0, plainBatch, [plainRecord 1]⟩
  let arrived : Broker memoryStore :=
    ⟨soloStore ⟨[plainRecord 0, plainRecord 1], 0, 2, 1, 2⟩ 2, slot, batches ++ [again], events⟩
  have stores : Broker.Answers append ⟨soloStore ⟨[plainRecord 0], 0, 1, 1, 1⟩ 1, slot, batches, events⟩
      (.ok ⟨[plainRecord 1], none⟩) arrived := ⟨rfl, rfl, rfl, rfl⟩
  have arrives : LateBroker.Others ⟨_, late.jobs, late.cut, []⟩ _ :=
    .single (.inl (@Backlog.Works.done _ _ _ _ _ _ _ _ _ _ _ [] [] _ _ trivial stores))
  have reads := @Broker.fetch_runs memoryStore arrived soloTopic.name 0 _ _ smallEngine 0 3 1
    ⟨[plainRecord 0, plainRecord 1], 2, 2⟩ (by decide) rfl rfl
  have fetched := @Ends.amid _ _ _ _ LateBroker.Others _ _ _ _ _ (fun _ => .refl)
    (@Backlog.ends_in_time _ _ _ _ Batch _ EngineCall.HasDeadline (.error .timeout) _ _ _ _ [] late.cut [again]
      reads)
  obtain rfl : partition = 0 := by
    apply placed.partition_eq (by decide)
    rw [appended]
    intro batch member
    rw [List.mem_singleton.mp member]
    rfl
  obtain ⟨record, rest, split, submitted, offset⟩ := placed.first
  have member := read smallEngine arrives fetched record (by simp [split])
    (Nat.zero_le _) (by rw [offset]; decide) (Nat.zero_le _)
  exact ⟨_, _, _, _, _, _, timely, arrives, nofun, rfl, fetched, record, member, submitted⟩

/-- What a call of `produce` returned, with the batch it was given. -/
abbrev Returned := Sent × Except CoreError ProduceResult

/-- What a call of `produce` has done so far. -/
inductive Sending where
  | unsent
  | stored (sent : Sent)
  | late (sent : Sent)

namespace Sending

variable {model : LogStoreModel}

def note : Sending → (request : EngineCall) → request.Answer → Sending
  | _, .store (.append topic _ records _), .ok _ => .stored (topic, records)
  | sending, _, _ => sending

/-- Only storage calls are given up. -/
def lost : Sending → EngineCall → Sending
  | _, .store (.append topic _ records _) => .late (topic, records)
  | _, _ => .unsent

def Permits (sent : Sent) (sending : Sending) : EngineCall → Prop
  | .store (.append topic _ records _) => sending = .unsent ∧ (topic, records) = sent
  | .store _ => sending = .unsent
  | _ => True

def Ended : Returned → Sending → Prop
  | (sent, .ok _), sending => sending = .stored sent
  | (sent, .error .timeout), sending => sending = .unsent ∨ sending = .late sent
  | (_, .error _), sending => sending = .unsent

theorem Ended.refused {sent : Sent} {reason : CoreError} : Ended (sent, .error reason) .unsent := by
  cases reason with
  | timeout => exact .inl rfl
  | _ => rfl

variable {sent : Sent}

theorem follows_storeCall {α : Type} {op : EngineProgram (Except PortError α)} (good : α → Sending → Prop)
    (attempt : op.Follows (Permits sent) note (fun result sending =>
      (∀ value, result = .ok value → good value sending) ∧ ∀ reason, result = .error reason → sending = .unsent)
      .unsent) :
    (storeCall op).Follows (Permits sent) note (fun result sending =>
      (∀ value, result = .ok value → good value sending) ∧
        ∀ reason, result = .error reason → sending = .unsent) .unsent :=
  ConnectForge.follows_storeCall (· = .unsent) good (fun _ same => same ▸ attempt) rfl

theorem follows_refused {reason : CoreError} :
    (pure (.error reason) : EngineProgram (Except CoreError ProduceResult)).Follows (Permits sent) note
      (fun result sending => Ended (sent, result) sending) .unsent := by
  change Ended (sent, .error reason) .unsent
  exact .refused

theorem follows_produce (topic : TopicName) (records : List ProduceRecord) :
    (produce topic records).Follows (Permits (topic, records)) note
      (fun result sending => Ended ((topic, records), result) sending) .unsent := by
  unfold produce
  split
  · exact follows_refused
  apply follows_call trivial
  intro admitted
  dsimp only [note]
  split
  · exact follows_refused
  split
  · exact follows_refused
  have counts : (partitionCount topic).Follows (Permits (topic, records)) note _ .unsent :=
    follows_storeCall (fun _ sending => sending = .unsent)
      (by exact follows_ask rfl fun _ => ⟨fun _ _ => rfl, fun _ _ => rfl⟩)
  have counted : (requireTopic topic).Follows (Permits (topic, records)) note
      (fun _ sending => sending = .unsent) .unsent := by
    apply counts.bind
    rintro (reason | _ | count) sending ⟨fine, failed⟩
    · exact failed _ rfl
    · exact fine _ rfl
    · exact fine _ rfl
  apply counted.bind
  rintro (reason | count) _ rfl
  · exact follows_refused
  have routed : (route (records.head?.bind ProduceRecord.key) count).Follows (Permits (topic, records)) note
      (fun _ sending => sending = .unsent) .unsent := by
    unfold route
    split
    · rfl
    · exact ⟨trivial, fun _ => rfl⟩
  apply routed.bind
  rintro partition _ rfl
  apply follows_call trivial
  intro timestamp
  have stores : (storeCall (Program.ask
      (EngineCall.store (.append topic partition records timestamp)))).Follows (Permits (topic, records)) note
      _ .unsent :=
    follows_storeCall (fun _ sending => sending = .stored (topic, records))
      (by
        refine ⟨⟨rfl, rfl⟩, ?_⟩
        rintro (reason | outcome)
        · exact ⟨nofun, fun _ _ => rfl⟩
        · exact ⟨fun _ _ => rfl, nofun⟩)
  apply stores.bind
  rintro (reason | outcome) sending ⟨fine, failed⟩
  · rw [failed _ rfl]
    exact follows_refused
  · rw [fine _ rfl]
    have announced : (announce topic partition outcome).Follows (Permits (topic, records)) note
        (fun _ sending => sending = .stored (topic, records)) (.stored (topic, records)) := by
      refine ⟨trivial, fun _ => ?_⟩
      cases truncated : outcome.truncatedTo with
      | none => rfl
      | some newStart => exact ⟨trivial, fun _ => rfl⟩
    exact announced.bind fun _ _ same => same

/-- A call of `produce`, which returns what it was given with its result. -/
def produces (topic : TopicName) (records : List ProduceRecord) :
    TimedProgram Returned := do
  let result ← underDeadlines (produce topic records)
  return ((topic, records), result)

def Starts (program : TimedProgram Returned) : Prop :=
  ∃ topic records, program = produces topic records

theorem lost_ended {sending : Sending} {request : EngineCall} (permitted : Permits sent sending request) :
    Ended (sent, .error .timeout) (sending.lost request) := by
  cases request with
  | store request =>
      cases request with
      | append topic partition records timestamp => exact .inr (congrArg late permitted.2)
      | _ => exact .inl rfl
  | _ => exact .inl rfl

/-! The account: what was stored, and what was given up. -/

def charged (late : LateBroker model) : Multiset Sent × Multiset Sent :=
  (late.world.appended.map Batch.sent, (late.cut.map EngineCall.sends).sum)

def paid (late : LateBroker model) : Multiset Sent × Multiset Sent := (late.overdue.map Batch.sent, 0)

def owes : Sending → Multiset Sent × Multiset Sent
  | .unsent => 0
  | .stored sent => ({sent}, 0)
  | .late sent => (0, {sent})

theorem note_owes {sending : Sending} {request : EngineCall} (permitted : Permits sent sending request)
    (answer : request.Answer) :
    (((request.entries answer).map Batch.sent : Multiset Sent), 0) + owes sending =
      owes (sending.note request answer) := by
  cases request with
  | store request =>
      cases request with
      | append topic partition records timestamp =>
          obtain ⟨rfl, rfl⟩ := permitted
          cases answer with
          | error reason => exact add_zero _
          | ok outcome => exact add_zero _
      | _ => exact zero_add _
  | _ => exact zero_add _

theorem lost_owes {sending : Sending} {request : EngineCall} (permitted : Permits sent sending request)
    (given : request.HasDeadline) : (0, request.sends) + owes sending = owes (sending.lost request) := by
  cases request with
  | store request =>
      cases request with
      | append topic partition records timestamp =>
          obtain ⟨rfl, rfl⟩ := permitted
          exact add_zero _
      | _ =>
          obtain rfl := permitted
          exact zero_add _
  | _ => exact given.elim

end Sending

namespace LateBroker

variable {model : LogStoreModel}

theorem appended_entries {request : EngineCall} {answer : request.Answer} {broker after : Broker model}
    (answered : Broker.Answers request broker answer after) :
    after.appended = broker.appended ++ request.entries answer := by
  cases request with
  | store request => exact answered.2.2.1
  | nextSlot =>
      rw [answered.2]
      exact (List.append_nil _).symm
  | publish event =>
      rw [answered.2]
      exact (List.append_nil _).symm
  | tryAcquire count =>
      rw [show after = broker from answered]
      exact (List.append_nil _).symm
  | now =>
      rw [show after = broker from answered]
      exact (List.append_nil _).symm

theorem published_quiet {request : EngineCall} {answer : request.Answer} {broker after : Broker model}
    (given : request.HasDeadline) (answered : Broker.Answers request broker answer after) :
    after.published = broker.published := by
  cases request with
  | store request => exact answered.2.2.2
  | _ => exact given.elim

/-- What is stored late is overdue, and nobody announces it. -/
theorem Later.batches {late moved : LateBroker model} (later : Later late moved) :
    ∃ batches, moved.world.appended = late.world.appended ++ batches ∧
      moved.overdue = late.overdue ++ batches ∧ moved.cut = late.cut ∧
      moved.world.published = late.world.published := by
  induction later with
  | refl => exact ⟨[], (List.append_nil _).symm, (List.append_nil _).symm, rfl, rfl⟩
  | tail _ works ih =>
      obtain ⟨batches, appended, overdue, cut, published⟩ := ih
      cases works with
      | @done request world answer after _ _ _ _ may answered =>
          dsimp only at appended overdue cut published ⊢
          refine ⟨batches ++ request.entries answer, ?_, ?_, cut, ?_⟩
          · rw [appended_entries answered, appended, List.append_assoc]
          · rw [overdue, List.append_assoc]
          · rw [published_quiet may answered, published]
      | dropped => exact ⟨batches, appended, overdue, cut, published⟩

end LateBroker

namespace Sending

variable {model : LogStoreModel}

theorem charged_later {late moved : LateBroker model} (later : LateBroker.Later late moved) :
    charged moved + paid late = charged late + paid moved := by
  obtain ⟨batches, appended, overdue, cut, _⟩ := later.batches
  simp only [charged, paid, appended, overdue, cut, List.map_append, ← Multiset.coe_add, Prod.mk_add_mk,
    add_zero]
  rw [add_right_comm, add_assoc]

theorem charged_answered {late after : LateBroker model} {sending : Sending} {request : EngineCall}
    {answer : Option request.Answer} (permitted : Permits sent sending request)
    (answered : LateBroker.Answers request late answer after) :
    charged after + owes sending = charged late + owes (noteLate note lost sending request answer) ∧
      paid after = paid late := by
  cases answered with
  | @inTime world answer stored jobs cut overdue answered =>
      refine ⟨?_, rfl⟩
      have grown : charged (⟨stored, jobs, cut, overdue⟩ : LateBroker model) =
          charged ⟨world, jobs, cut, overdue⟩ +
            (((request.entries answer).map Batch.sent : Multiset Sent), 0) := by
        simp only [charged, LateBroker.appended_entries answered, List.map_append, ← Multiset.coe_add,
          Prod.mk_add_mk, add_zero]
      rw [grown, add_assoc, note_owes permitted answer, noteLate]
  | @expired world jobs cut overdue may =>
      refine ⟨?_, rfl⟩
      have grown : charged (⟨world, request :: jobs, request :: cut, overdue⟩ : LateBroker model) =
          charged ⟨world, jobs, cut, overdue⟩ + (0, request.sends) := by
        simp only [charged, List.map_cons, List.sum_cons, Prod.mk_add_mk, add_zero]
        rw [add_comm request.sends]
      rw [grown, add_assoc, lost_owes permitted may, noteLate]

/-- A call that was given up stores what it was given, or nothing. -/
theorem entries_sends (request : EngineCall) (answer : request.Answer) :
    ((request.entries answer).map Batch.sent : Multiset Sent) ≤ request.sends := by
  cases request with
  | store request =>
      cases request with
      | append topic partition records timestamp =>
          cases answer with
          | error reason => exact Multiset.zero_le _
          | ok outcome => exact le_refl _
      | _ => exact le_refl _
  | _ => exact le_refl _

def answeredBy (judge : Except CoreError ProduceResult → Bool) (returned : List Returned) : Multiset Sent :=
  (returned.filter fun value => judge value.2).map Prod.fst

def isTimeout : Except CoreError ProduceResult → Bool
  | .error .timeout => true
  | _ => false

/-- The batches whose producers were told that they are stored. -/
def acknowledged (returned : List Returned) : Multiset Sent := answeredBy Except.isOk returned

/-- The batches whose producers were told that a deadline has passed. -/
def timedOut (returned : List Returned) : Multiset Sent := answeredBy isTimeout returned

theorem answeredBy_cons (judge : Except CoreError ProduceResult → Bool) (value : Returned)
    (returned : List Returned) :
    answeredBy judge (value :: returned) = (if judge value.2 then {value.1} else 0) +
      answeredBy judge returned := by
  unfold answeredBy
  cases judged : judge value.2 with
  | true =>
      simp only [List.filter_cons, judged, ↓reduceIte]
      rfl
  | false =>
      simp only [List.filter_cons, judged, Bool.false_eq_true, ↓reduceIte]
      exact (zero_add _).symm

/-- What a call owes once it has returned. -/
theorem Ended.owes {value : Returned} {sending : Sending} (ended : Ended value sending) :
    (owes sending).1 = (if value.2.isOk then {value.1} else 0) ∧
      (owes sending).2 ≤ if isTimeout value.2 then {value.1} else 0 := by
  obtain ⟨sent, result⟩ := value
  cases result with
  | ok result =>
      obtain rfl := ended
      exact ⟨rfl, le_refl _⟩
  | error reason =>
      cases reason with
      | timeout =>
          rcases ended with rfl | rfl
          · exact ⟨rfl, Multiset.zero_le _⟩
          · exact ⟨rfl, le_refl _⟩
      | _ =>
          obtain rfl := ended
          exact ⟨rfl, le_refl _⟩

end Sending

/-- What a call has sent, and what it has yet to announce. -/
abbrev Owing := Sending × Option Live.Owed

namespace Owing

variable {model : LogStoreModel} {sent : Sent}

def note (owing : Owing) (request : EngineCall) (answer : request.Answer) : Owing :=
  (owing.1.note request answer, Live.note owing.2 request answer)

def lost (owing : Owing) (request : EngineCall) : Owing := (owing.1.lost request, none)

structure Permits (sent : Sent) (owing : Owing) (request : EngineCall) : Prop where
  sending : Sending.Permits sent owing.1 request
  announcing : Live.Permits owing.2 request
  unsent : owing.1 = .unsent → owing.2 = none

def PermitsAny (owing : Owing) (request : EngineCall) : Prop := ∃ sent, Permits sent owing request

def Ended (value : Returned) (owing : Owing) : Prop := Sending.Ended value owing.1 ∧ owing.2 = none

/-- What was not sent is not announced. -/
theorem note_unsent (owing : Owing) (request : EngineCall) (answer : request.Answer)
    (unsent : owing.1 = .unsent → owing.2 = none) :
    (note owing request answer).1 = .unsent → (note owing request answer).2 = none := by
  cases request with
  | store request =>
      cases request with
      | append topic partition records timestamp =>
          cases answer with
          | error reason => exact unsent
          | ok outcome => exact nofun
      | _ => exact unsent
  | publish event =>
      cases event with
      | recordsAppended topic partition baseOffset records => exact fun _ => rfl
      | _ => exact unsent
  | _ => exact unsent

theorem follows_produce (topic : TopicName) (records : List ProduceRecord) :
    (produce topic records).Follows (Permits (topic, records)) note
      (fun result owing => Ended ((topic, records), result) owing) (.unsent, none) := by
  have each := (Sending.follows_produce topic records).both (Live.follows_produce topic records)
  have known := each.keeping (fun owing => owing.1 = .unsent → owing.2 = none)
    (fun owing request answer _ => note_unsent owing request answer) fun _ => rfl
  exact known.imp fun _ _ permitted => ⟨permitted.1.1, permitted.1.2, permitted.2⟩

theorem follows_starts {program : TimedProgram Returned} (started : Sending.Starts program) :
    program.Follows PermitsAny (noteLate note lost) Ended (.unsent, none) := by
  obtain ⟨topic, records, rfl⟩ := started
  have timed := (follows_produce topic records).expiring (fun _ _ permitted =>
    (⟨Sending.lost_ended permitted.sending, rfl⟩ : Ended ((topic, records), .error .timeout) (lost _ _)))
  exact (timed.imp fun _ _ permitted => ⟨_, permitted⟩).bind fun _ _ ended => ended

/-- What was sent, stored and given up. -/
theorem sendingLedger :
    Ledger (Amid LateBroker.Later (@LateBroker.Answers model)) (noteLate note lost) (.unsent, none)
      Sending.Starts (fun _ _ _ => True) PermitsAny Ended Sending.charged Sending.paid
      (fun owing => Sending.owes owing.1) :=
  Ledger.amid
    { follows := fun _ => follows_starts
      fresh := rfl
      step := by
        rintro late after owing request answer ⟨sent, permitted⟩ _ answered
        obtain ⟨grown, same⟩ := Sending.charged_answered permitted.sending answered
        have first : (noteLate note lost owing request answer).1 =
            noteLate Sending.note Sending.lost owing.1 request answer := by
          cases answer <;> rfl
        rw [first, same, add_right_comm, grown, add_right_comm] }
    Sending.charged_later

/-! The other account: what was stored, and what was announced. -/

def stored (late : LateBroker model) : Multiset LogEvent := Live.stored late.world

def told (late : LateBroker model) : Multiset LogEvent :=
  Live.told late.world + late.overdue.map Batch.announcement

theorem stored_later {late moved : LateBroker model} (later : LateBroker.Later late moved) :
    stored moved + told late = stored late + told moved := by
  obtain ⟨batches, appended, overdue, _, published⟩ := later.batches
  simp only [stored, told, Live.stored, appended, overdue, Live.told_same published, List.map_append,
    ← Multiset.coe_add]
  abel

theorem announcingLedger :
    Ledger (Amid LateBroker.Later (@LateBroker.Answers model)) (noteLate note lost) (.unsent, none)
      Sending.Starts (fun _ _ _ => True) PermitsAny Ended stored told (fun owing => Live.owes owing.2) :=
  Ledger.amid
    { follows := fun _ => follows_starts
      fresh := rfl
      step := by
        rintro late after owing request answer ⟨sent, permitted⟩ _ answered
        cases answered with
        | @inTime world answer after jobs cut overdue answered =>
            have moved := (Live.ledger model).step permitted.announcing trivial answered
            simp only [stored, told, noteLate, note]
            rw [← add_assoc, add_right_comm _ _ (Live.owes _), moved]
            abel
        | expired may =>
            have nothing : owing.2 = none := by
              apply permitted.unsent
              cases request with
              | store request =>
                  cases request with
                  | append topic partition records timestamp => exact permitted.sending.1
                  | _ => exact permitted.sending
              | _ => exact may.elim
            simp only [noteLate, lost, nothing]
            rfl }
    stored_later

theorem owed_returned {tasks : List (Task Owing EngineCall (fun request => Option request.Answer) Returned)}
    {returned : List Returned}
    (follows : ∀ task ∈ tasks, task.program.Follows PermitsAny (noteLate note lost) Ended task.memo)
    (ended : tasks.map Task.program = returned.map .done) :
    (Tasks.owed (fun owing => Sending.owes owing.1) tasks).1 = Sending.acknowledged returned ∧
      (Tasks.owed (fun owing => Sending.owes owing.1) tasks).2 ≤ Sending.timedOut returned := by
  induction tasks generalizing returned with
  | nil =>
      cases returned with
      | nil => exact ⟨rfl, le_refl _⟩
      | cons value rest => cases ended
  | cons task tasks ih =>
      cases returned with
      | nil => cases ended
      | cons value rest =>
          obtain ⟨finished, others⟩ := List.cons.inj ended
          have kept := follows task List.mem_cons_self
          rw [finished] at kept
          obtain ⟨paid, cut⟩ := Sending.Ended.owes kept.1
          obtain ⟨allPaid, allCut⟩ :=
            ih (fun other member => follows other (List.mem_cons_of_mem _ member)) others
          rw [Tasks.owed_cons, Prod.fst_add, Prod.snd_add, Sending.acknowledged, Sending.timedOut,
            Sending.answeredBy_cons, Sending.answeredBy_cons]
          exact ⟨congrArg₂ (· + ·) paid allPaid, add_le_add cut allCut⟩

end Owing

abbrev Producers (model : LogStoreModel) :=
  Tasks (LateBroker model) Owing EngineCall (fun request => Option request.Answer) Returned

/-- Any number of producers, and the storage calls they gave up. -/
abbrev Producers.Reaches {model : LogStoreModel} (broker : Broker model) (state : Producers model) : Prop :=
  Tasks.Reaches (Amid LateBroker.Later LateBroker.Answers) (noteLate Owing.note Owing.lost) (.unsent, none)
    Sending.Starts (fun _ _ _ => True) (.fresh broker) state

open Infra in
/-- A call that was given up, and carried out after its producer had been told. -/
theorem lateCall_stored :
    ∃ (state : Producers memoryStore) (jobs cut : List EngineCall),
      Producers.Reaches (soloBroker .default 0 0 []) state ∧
      state.tasks.map Task.program = [.done ((soloTopic.name, plainBatch), .error .timeout)] ∧
      LateBroker.Later state.world ⟨soloBroker ⟨[plainRecord 0], 0, 1, 1, 1⟩ 1 1
        [⟨soloTopic.name, 0, plainBatch, [plainRecord 0]⟩], jobs, cut,
        [⟨soloTopic.name, 0, plainBatch, [plainRecord 0]⟩]⟩ := by
  let broker := soloBroker .default 0 0 []
  let routedBroker := soloBroker .default 0 1 []
  let append : EngineCall := .store (.append soloTopic.name 0 plainBatch .epoch)
  have counts : Broker.Answers (.store (.partitionCount soloTopic.name)) broker (.ok (some 1)) broker :=
    ⟨rfl, rfl, rfl, rfl⟩
  have spawned : Producers.Reaches broker
      ⟨.fresh broker, [⟨(.unsent, none), Sending.produces soloTopic.name plainBatch⟩]⟩ :=
    Tasks.Reaches.start .refl ⟨_, _, rfl⟩
  have admitted := Tasks.Reaches.answer [] spawned trivial
    (show Amid LateBroker.Later LateBroker.Answers (.tryAcquire 1) (.fresh broker) (some true) (.fresh broker)
      from ⟨_, .refl, .inTime rfl⟩)
  have counted := Tasks.Reaches.answer [] admitted trivial
    (show Amid LateBroker.Later LateBroker.Answers (.store (.partitionCount soloTopic.name)) (.fresh broker)
      (some (.ok (some 1))) (.fresh broker) from ⟨_, .refl, .inTime counts⟩)
  have routed := Tasks.Reaches.answer [] counted trivial
    (show Amid LateBroker.Later LateBroker.Answers .nextSlot (.fresh broker) (some (0 : Nat))
      (.fresh routedBroker) from ⟨_, .refl, .inTime ⟨rfl, rfl⟩⟩)
  have timed := Tasks.Reaches.answer [] routed trivial
    (show Amid LateBroker.Later LateBroker.Answers .now (.fresh routedBroker) (some DateTime.epoch)
      (.fresh routedBroker) from ⟨_, .refl, .inTime rfl⟩)
  have givenUp := Tasks.Reaches.answer [] timed trivial
    (show Amid LateBroker.Later LateBroker.Answers append (.fresh routedBroker) none
      ⟨routedBroker, [append], [append], []⟩ from ⟨_, .refl, .expired trivial⟩)
  have stores : Broker.Answers append routedBroker (.ok ⟨[plainRecord 0], none⟩)
      (soloBroker ⟨[plainRecord 0], 0, 1, 1, 1⟩ 1 1 [⟨soloTopic.name, 0, plainBatch, [plainRecord 0]⟩]) :=
    ⟨rfl, rfl, rfl, rfl⟩
  have later : LateBroker.Later ⟨routedBroker, [append], [append], []⟩ _ :=
    .single (@Backlog.Works.done _ _ _ _ _ _ _ _ _ _ _ [] [] _ _ trivial stores)
  exact ⟨_, _, _, givenUp, rfl, later⟩

/-- However the calls of producers interleave, with storage calls that are given up
and carried out later or never: once the calls have returned, a batch is stored once
for each time it was acknowledged, at most once more for each time it met a
deadline, and not at all where it was refused. -/
theorem produced_once {model : LogStoreModel} {broker : Broker model} (empty : broker.appended = [])
    {state : Producers model} (reached : Producers.Reaches broker state)
    {returned : List Returned} (ended : state.tasks.map Task.program = returned.map .done)
    {final : LateBroker model} (later : LateBroker.Later state.world final) :
    Sending.acknowledged returned ≤ final.world.appended.map Batch.sent ∧
      (final.world.appended.map Batch.sent : Multiset Sent) ≤
        Sending.acknowledged returned + Sending.timedOut returned := by
  have level : Sending.charged (.fresh broker : LateBroker model) = Sending.paid (.fresh broker) := by
    simp [Sending.charged, Sending.paid, Backlog.fresh, empty]
  have covered : state.world.Covered EngineCall.sends Batch.sent := by
    refine reached.keeps (Backlog.Covered EngineCall.sends Batch.sent) ?_ (.fresh broker)
    rintro world request answer after covered ⟨moved, works, answered⟩
    exact (covered.later Sending.entries_sends works).call answered
  have covered' : final.Covered EngineCall.sends Batch.sent := covered.later Sending.entries_sends later
  have balanced : Sending.charged final =
      Sending.paid final + Tasks.owed (fun owing => Sending.owes owing.1) state.tasks :=
    balance_moves (Sending.charged_later later) (Owing.sendingLedger.balanced level reached)
  obtain ⟨paid, cut⟩ := Owing.owed_returned (reached.follows fun _ => Owing.follows_starts) ended
  have stored : (final.world.appended.map Batch.sent : Multiset Sent) =
      final.overdue.map Batch.sent + Sending.acknowledged returned := by
    rw [← paid]
    exact congrArg Prod.fst balanced
  have overdue : (final.overdue.map Batch.sent : Multiset Sent) ≤ Sending.timedOut returned := by
    have given : (final.cut.map EngineCall.sends).sum =
        (Tasks.owed (fun owing => Sending.owes owing.1) state.tasks).2 := by
      have second := congrArg Prod.snd balanced
      rwa [Prod.snd_add, show (Sending.paid final).2 = 0 from rfl, zero_add] at second
    calc (final.overdue.map Batch.sent : Multiset Sent)
        ≤ final.overdue.map Batch.sent + (final.jobs.map EngineCall.sends).sum := Multiset.le_add_right _ _
      _ ≤ (final.cut.map EngineCall.sends).sum := covered'
      _ ≤ Sending.timedOut returned := given ▸ cut
  rw [stored]
  refine ⟨Multiset.le_add_left _ _, ?_⟩
  rw [add_comm]
  exact add_le_add_right overdue _

open Infra in
theorem produced_once_late :
    ∃ (state : Producers memoryStore) (returned : List Returned) (final : LateBroker memoryStore),
      Producers.Reaches (soloBroker .default 0 0 []) state ∧
      LateBroker.Later state.world final ∧ Sending.acknowledged returned = 0 ∧
      (final.world.appended.map Batch.sent : Multiset Sent) = {(soloTopic.name, plainBatch)} ∧
      (final.world.appended.map Batch.sent : Multiset Sent) ≤
        Sending.acknowledged returned + Sending.timedOut returned := by
  obtain ⟨state, jobs, cut, reached, ended, later⟩ := lateCall_stored
  have ended' : state.tasks.map Task.program =
      [((soloTopic.name, plainBatch), (.error .timeout : Except CoreError ProduceResult))].map .done := ended
  exact ⟨_, _, _, reached, later, rfl, rfl, (produced_once rfl reached ended' later).2⟩

/-- The same calls seen by subscribers: every announcement is of a batch that was
stored in time and no batch is announced twice; once all calls have returned, the
batches that nobody announces are those that were stored after they were given
up. -/
theorem late_unannounced {model : LogStoreModel} {broker : Broker model}
    (even : (broker.appended.map Batch.announcement).Perm (broker.published.filter LogEvent.announces))
    {state : Producers model} (reached : Producers.Reaches broker state) {final : LateBroker model}
    (later : LateBroker.Later state.world final) :
    (final.world.published.filter LogEvent.announces ++ final.overdue.map Batch.announcement).Subperm
        (final.world.appended.map Batch.announcement) ∧
      ((∀ task ∈ state.tasks, ∃ value, task.program = .done value) →
        (final.world.published.filter LogEvent.announces ++ final.overdue.map Batch.announcement).Perm
          (final.world.appended.map Batch.announcement)) := by
  have level : Owing.stored (.fresh broker : LateBroker model) = Owing.told (.fresh broker) := by
    rw [Owing.told, show ((Backlog.fresh broker : LateBroker model).overdue) = [] from rfl, List.map_nil,
      Multiset.coe_nil, add_zero]
    exact Multiset.coe_eq_coe.mpr even
  have balanced := balance_moves (Owing.stored_later later) (Owing.announcingLedger.balanced level reached)
  have told : Owing.told final =
      ↑(final.world.published.filter LogEvent.announces ++ final.overdue.map Batch.announcement) :=
    Multiset.coe_add _ _
  refine ⟨?_, ?_⟩
  · apply Multiset.coe_le.mp
    rw [← told]
    exact (Multiset.le_add_right _ _).trans_eq balanced.symm
  · intro ended
    apply Multiset.coe_eq_coe.mp
    have settled := Owing.announcingLedger.settled level
      (fun kept => by rw [kept.2]; rfl) reached ended
    rw [← told]
    have moved := balance_moves (Owing.stored_later later) (settled.trans (add_zero _).symm)
    exact (moved.trans (add_zero _)).symm

open Infra in
theorem late_unannounced_late :
    ∃ (state : Producers memoryStore) (final : LateBroker memoryStore),
      Producers.Reaches (soloBroker .default 0 0 []) state ∧ LateBroker.Later state.world final ∧
      final.world.published = [] ∧ final.world.appended.length = 1 ∧
      (final.world.published.filter LogEvent.announces ++ final.overdue.map Batch.announcement).Perm
        (final.world.appended.map Batch.announcement) := by
  obtain ⟨state, jobs, cut, reached, ended, later⟩ := lateCall_stored
  refine ⟨_, _, reached, later, rfl, rfl, (late_unannounced (by decide) reached later).2 ?_⟩
  intro task member
  have returned := List.mem_map_of_mem (f := Task.program) member
  rw [ended] at returned
  exact ⟨_, List.mem_singleton.mp returned⟩

end ConnectForge
