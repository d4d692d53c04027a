import ConnectForge.Broker.LiveEvents
import ConnectForge.Interaction.Ledger
import ConnectForge.Resilience.Limiter

namespace ConnectForge

open Data Interaction Resilience

/-! The rate limiter in front of `produce`, and what it lets into the store.
Numbers and clock readings are rationals, as they are for the limiter. -/

structure Gated (model : LogStoreModel) where
  broker : Broker model
  limiter : RateLimiter
  /-- The limiter's last reading of its clock. -/
  clock : ℚ
  /-- The records of all batches the limiter let through. -/
  admitted : Nat

namespace Gated

variable {model : LogStoreModel}

def storedRecords (world : Gated model) : Nat :=
  (world.broker.appended.map fun batch => batch.submitted.length).sum

def Answers : (request : EngineCall) → Gated model → request.Answer → Gated model → Prop
  | .tryAcquire count, world, answer, after => ∃ now, world.clock ≤ now ∧
      answer = (world.limiter.tryAcquireN ⟨count, now⟩).1.isOk ∧
      after = { world with
        limiter := (world.limiter.tryAcquireN ⟨count, now⟩).2
        clock := now
        admitted := world.admitted + if answer then count else 0 }
  | .store request, world, answer, after =>
      Broker.Answers (.store request) world.broker answer after.broker ∧
        after = { world with broker := after.broker }
  | .nextSlot, world, answer, after =>
      Broker.Answers .nextSlot world.broker answer after.broker ∧
        after = { world with broker := after.broker }
  | .now, world, answer, after =>
      Broker.Answers .now world.broker answer after.broker ∧ after = { world with broker := after.broker }
  | .publish event, world, answer, after =>
      Broker.Answers (.publish event) world.broker answer after.broker ∧
        after = { world with broker := after.broker }

/-- The records a call was let through with and has not stored yet. -/
def note (held : Nat) : (request : EngineCall) → request.Answer → Nat
  | .tryAcquire count, true => held + count
  | .store (.append _ _ _ _), .ok _ => 0
  | _, _ => held

def Permits (held : Nat) : EngineCall → Prop
  | .store (.partitionCount _) => True
  | .store (.append _ _ records _) => held = records.length
  | .store _ => False
  | _ => True

theorem follows_requireTopic (topic : TopicName) (held : Nat) :
    (requireTopic topic).Follows Permits note (fun _ later => later = held) held := by
  have counted : (partitionCount topic).Follows Permits note _ held :=
    follows_storeCall (fun later => later = held) (fun _ later => later = held)
      (by
        rintro _ rfl
        exact follows_ask trivial fun _ => ⟨fun _ _ => rfl, fun _ _ => rfl⟩) rfl
  apply counted.bind
  rintro (reason | _ | count) later ⟨fine, failed⟩
  · exact failed _ rfl
  · exact fine _ rfl
  · exact fine _ rfl

theorem follows_announce (topic : TopicName) (partition : Nat) (outcome : AppendOutcome) (held : Nat) :
    (announce topic partition outcome).Follows Permits note (fun _ _ => True) held := by
  refine ⟨trivial, fun _ => ?_⟩
  cases truncated : outcome.truncatedTo with
  | none => trivial
  | some newStart => exact ⟨trivial, fun _ => trivial⟩

theorem follows_produce (topic : TopicName) (records : List ProduceRecord) :
    (produce topic records).Follows Permits note (fun _ _ => True) 0 := by
  unfold produce
  split
  · trivial
  apply follows_call trivial
  intro admitted
  cases admitted with
  | false => trivial
  | true =>
      simp only [note, Bool.not_true, Bool.false_eq_true, ↓reduceIte, Nat.zero_add]
      split
      · trivial
      apply (follows_requireTopic topic records.length).bind
      rintro (reason | count) _ rfl
      · trivial
      have routed : (route (records.head?.bind ProduceRecord.key) count).Follows Permits note
          (fun _ later => later = records.length) records.length := by
        unfold route
        split
        · rfl
        · exact ⟨trivial, fun _ => rfl⟩
      apply routed.bind
      rintro partition _ rfl
      apply follows_call trivial
      intro timestamp
      have appended : (storeCall (Program.ask
          (EngineCall.store (.append topic partition records timestamp)))).Follows Permits note _
          records.length :=
        follows_storeCall (fun later => later = records.length) (fun _ _ => True)
          (by
            rintro _ rfl
            refine ⟨rfl, ?_⟩
            rintro (reason | outcome)
            · exact ⟨fun _ _ => trivial, fun _ _ => rfl⟩
            · exact ⟨fun _ _ => trivial, fun _ impossible => by cases impossible⟩) rfl
      apply appended.bind
      rintro (reason | outcome) later _
      · trivial
      · exact (follows_announce topic partition outcome later).bind fun _ _ _ => trivial

variable {world after : Gated model}

theorem storedRecords_same (same : after.broker.appended = world.broker.appended) :
    after.storedRecords = world.storedRecords := by
  rw [storedRecords, same]
  rfl

/-- A record is let through before it is stored, and for every one let through at
most one is stored. -/
theorem ledger (model : LogStoreModel) :
    Ledger (@Answers model) note 0 Live.Produces (fun _ _ _ => True) Permits (fun _ _ => True) admitted
      storedRecords id where
  follows := by
    rintro _ ⟨topic, records, rfl⟩
    exact follows_produce topic records
  fresh := rfl
  step := by
    intro world after held request answer permitted _ answered
    cases request with
    | tryAcquire count =>
        obtain ⟨now, _, _, rfl⟩ := answered
        change world.admitted + _ + world.storedRecords + held =
          world.admitted + world.storedRecords + _
        cases answer with
        | false => simp [note]
        | true =>
            simp only [note, id, ↓reduceIte]
            omega
    | store request =>
        obtain ⟨⟨_, _, grown, _⟩, same⟩ := answered
        have unchanged : after.admitted = world.admitted := by rw [same]
        rw [unchanged]
        cases request with
        | append topic partition batch timestamp =>
            cases answer with
            | error reason =>
                rw [storedRecords_same (grown.trans (List.append_nil _))]
                rfl
            | ok outcome =>
                have size : after.storedRecords = world.storedRecords + batch.length := by
                  simp [storedRecords, grown, taken]
                have owed : held = batch.length := permitted
                rw [size, owed]
                simp only [note, id]
                omega
        | partitionCount topic => rw [storedRecords_same (grown.trans (List.append_nil _))]; rfl
        | createTopic config => cases permitted
        | topics => cases permitted
        | fetch topic partition start max => cases permitted
        | stats => cases permitted
    | publish event =>
        obtain ⟨⟨_, told⟩, same⟩ := answered
        have quiet : after.broker.appended = world.broker.appended := by rw [told]
        rw [storedRecords_same quiet, same]
        rfl
    | nextSlot =>
        obtain ⟨⟨_, moved⟩, same⟩ := answered
        have quiet : after.broker.appended = world.broker.appended := by rw [moved]
        rw [storedRecords_same quiet, same]
        rfl
    | now =>
        obtain ⟨still, same⟩ := answered
        have quiet : after.broker.appended = world.broker.appended := by
          rw [show after.broker = world.broker from still]
        rw [storedRecords_same quiet, same]
        rfl

/-- A limiter in step with a bucket that has given away `admitted` tokens since
`start`. -/
structure Metered (bucket : Bucket ℚ) (start : ℚ) (world : Gated model) : Prop where
  tracks : ∃ level, Tracks bucket level world.limiter ∧ bucket.Within level ∧
    level.time = world.clock ∧
    world.admitted + level.tokens ≤ bucket.capacity + bucket.rate * (world.clock - start)

variable {bucket : Bucket ℚ} {start : ℚ}

theorem Metered.same (metered : Metered bucket start world) (limiter : after.limiter = world.limiter)
    (clock : after.clock = world.clock) (admitted : after.admitted = world.admitted) :
    Metered bucket start after := by
  obtain ⟨level, tracks⟩ := metered
  exact ⟨level, by rw [limiter, clock, admitted]; exact tracks⟩

theorem Metered.acquire (metered : Metered bucket start world) {count : Nat} {now : ℚ}
    (later : world.clock ≤ now) {answer : Bool}
    (answered : answer = (world.limiter.tryAcquireN ⟨count, now⟩).1.isOk) :
    Metered bucket start { world with
      limiter := (world.limiter.tryAcquireN ⟨count, now⟩).2
      clock := now
      admitted := world.admitted + if answer then count else 0 } := by
  obtain ⟨level, tracks, within, time, budget⟩ := metered
  have asks : (0 : ℚ) ≤ count := Nat.cast_nonneg count
  have onwards : level.time ≤ (⟨count, now⟩ : Request ℚ).time := by
    rw [time]
    exact later
  obtain ⟨tracked, _, granted⟩ := tracks.acquire within onwards
  refine ⟨bucket.serve level ⟨count, now⟩, tracked, within.serve onwards asks, rfl, ?_⟩
  have filled := min_le_left (level.tokens + bucket.rate * (now - level.time)) bucket.capacity
  have given : ((if answer then count else 0 : Nat) : ℚ) = bucket.grant level ⟨count, now⟩ := by
    rw [← granted, answered]
    cases (world.limiter.tryAcquireN ⟨count, now⟩).1 <;> simp [Except.isOk, Except.toBool]
  have left : (bucket.serve level ⟨count, now⟩).tokens =
      bucket.available level now - bucket.grant level ⟨count, now⟩ := rfl
  simp only [Nat.cast_add, given, left]
  unfold Bucket.available
  rw [time] at filled ⊢
  linarith

theorem Metered.step (metered : Metered bucket start world) {request : EngineCall}
    {answer : request.Answer} (answered : Answers request world answer after) :
    Metered bucket start after := by
  cases request with
  | tryAcquire count =>
      obtain ⟨now, later, given, rfl⟩ := answered
      exact metered.acquire later given
  | store request => exact metered.same (by rw [answered.2]) (by rw [answered.2]) (by rw [answered.2])
  | publish event => exact metered.same (by rw [answered.2]) (by rw [answered.2]) (by rw [answered.2])
  | nextSlot => exact metered.same (by rw [answered.2]) (by rw [answered.2]) (by rw [answered.2])
  | now => exact metered.same (by rw [answered.2]) (by rw [answered.2]) (by rw [answered.2])

theorem Metered.reaches {held : Nat} {starts : EngineProgram (Except CoreError ProduceResult) → Prop}
    {allowed : Gated model → Nat → EngineCall → Prop} (metered : Metered bucket start world)
    {state : Tasks (Gated model) Nat EngineCall EngineCall.Answer (Except CoreError ProduceResult)}
    (reached : Tasks.Reaches Answers note held starts allowed world state) :
    Metered bucket start state.world := by
  induction reached with
  | refl => exact metered
  | tail _ step ih =>
      cases step with
      | spawn _ => exact ih
      | answer _ answered => exact ih.step answered

end Gated

/-- However `produce` calls interleave, by the time of the limiter's last reading
no more records are stored than its burst and what its rate has added. -/
theorem stored_within_rate {model : LogStoreModel} (burst rate start : ℚ) {world : Gated model}
    (limiter : world.limiter = .withClock burst rate start) (clock : world.clock = start)
    (unused : world.admitted = 0) (empty : world.broker.appended = [])
    {state : Tasks (Gated model) Nat EngineCall EngineCall.Answer (Except CoreError ProduceResult)}
    (reached : Tasks.Reaches Gated.Answers Gated.note 0 Live.Produces (fun _ _ _ => True) world state) :
    (state.world.storedRecords : ℚ) ≤
      max burst 1 + max rate 0 * (state.world.clock - start) := by
  have level : world.admitted = world.storedRecords := by
    rw [unused, Gated.storedRecords, empty]
    rfl
  have balanced := (Gated.ledger model).balanced level reached
  have metered : Gated.Metered (limiterBucket burst rate) start world := by
    refine ⟨⟨max burst 1, start⟩, ?_, ?_, clock.symm, ?_⟩
    · rw [limiter]
      exact ⟨rfl, rfl, rfl, rfl⟩
    · exact ⟨(limiterBucket burst rate).capacity_nonneg, le_refl _⟩
    · simp [unused, clock, limiterBucket]
  obtain ⟨_, _, within, _, budget⟩ := metered.reaches reached
  have admitted : (state.world.storedRecords : ℚ) ≤ state.world.admitted := by
    rw [balanced]
    exact_mod_cast Nat.le_add_right _ _
  have tokens := within.1
  change (state.world.admitted : ℚ) + _ ≤ max burst 1 + max rate 0 * _ at budget
  linarith

open Infra

/-- Two calls at once under a burst of one and no refill: the one that is let through
stores its record after the other was turned away. -/
theorem stored_within_rate_pair :
    ∃ state : Tasks (Gated memoryStore) Nat EngineCall EngineCall.Answer
        (Except CoreError ProduceResult),
      Tasks.Reaches Gated.Answers Gated.note 0 Live.Produces (fun _ _ _ => True)
        ⟨soloBroker .default 0 0 [], .withClock 1 0 0, 0, 0⟩ state ∧
      (∃ task ∈ state.tasks, task.program = .done (.error .rateLimited)) ∧
      state.world.storedRecords = 1 ∧
      (state.world.storedRecords : ℚ) ≤ max 1 1 + max 0 0 * (state.world.clock - 0) := by
  let limiter := RateLimiter.withClock 1 0 0
  let spent := (limiter.tryAcquireN ⟨1, 0⟩).2
  let left := (spent.tryAcquireN ⟨1, 0⟩).2
  have admits : (limiter.tryAcquireN ⟨1, 0⟩).1.isOk = true := by
    norm_num [limiter, RateLimiter.withClock, RateLimiter.tryAcquireN, RateLimiter.refill, Except.isOk,
      Except.toBool]
  have refuses : (spent.tryAcquireN ⟨1, 0⟩).1.isOk = false := by
    norm_num [spent, limiter, RateLimiter.withClock, RateLimiter.tryAcquireN, RateLimiter.refill, Except.isOk,
      Except.toBool]
  have spawned : Tasks.Reaches Gated.Answers Gated.note 0 Live.Produces (fun _ _ _ => True)
      ⟨soloBroker .default 0 0 [], limiter, 0, 0⟩
      ⟨⟨soloBroker .default 0 0 [], limiter, 0, 0⟩,
        [⟨0, produce soloTopic.name plainBatch⟩, ⟨0, produce soloTopic.name plainBatch⟩]⟩ :=
    Tasks.Reaches.start (Tasks.Reaches.start .refl ⟨_, _, rfl⟩) ⟨_, _, rfl⟩
  have acquires : Gated.Answers (.tryAcquire 1) (⟨soloBroker .default 0 0 [], limiter, 0, 0⟩ :
      Gated memoryStore) true ⟨soloBroker .default 0 0 [], spent, 0, 1⟩ :=
    ⟨0, le_refl _, admits.symm, rfl⟩
  have acquiresNone : Gated.Answers (.tryAcquire 1) (⟨soloBroker .default 0 0 [], spent, 0, 1⟩ :
      Gated memoryStore) false ⟨soloBroker .default 0 0 [], left, 0, 1⟩ :=
    ⟨0, le_refl _, refuses.symm, rfl⟩
  have counts : Gated.Answers (.store (.partitionCount soloTopic.name))
      (⟨soloBroker .default 0 0 [], left, 0, 1⟩ : Gated memoryStore) (.ok (some 1))
      ⟨soloBroker .default 0 0 [], left, 0, 1⟩ :=
    ⟨⟨rfl, rfl, (List.append_nil _).symm, rfl⟩, rfl⟩
  have routes : Gated.Answers .nextSlot (⟨soloBroker .default 0 0 [], left, 0, 1⟩ : Gated memoryStore)
      (0 : Nat) ⟨soloBroker .default 0 1 [], left, 0, 1⟩ := ⟨⟨rfl, rfl⟩, rfl⟩
  have times : Gated.Answers .now (⟨soloBroker .default 0 1 [], left, 0, 1⟩ : Gated memoryStore)
      DateTime.epoch ⟨soloBroker .default 0 1 [], left, 0, 1⟩ := ⟨rfl, rfl⟩
  have stores : Gated.Answers (.store (.append soloTopic.name 0 plainBatch .epoch))
      (⟨soloBroker .default 0 1 [], left, 0, 1⟩ : Gated memoryStore) (.ok ⟨[plainRecord 0], none⟩)
      ⟨soloBroker ⟨[plainRecord 0], 0, 1, 1, 1⟩ 1 1 [⟨soloTopic.name, 0, plainBatch, [plainRecord 0]⟩],
        left, 0, 1⟩ := ⟨⟨rfl, rfl, rfl, rfl⟩, rfl⟩
  have admitted := Tasks.Reaches.answer [] spawned trivial acquires
  have turnedAway := Tasks.Reaches.answer [_] admitted trivial acquiresNone
  have counted := Tasks.Reaches.answer [] turnedAway trivial counts
  have routed := Tasks.Reaches.answer [] counted trivial routes
  have timed := Tasks.Reaches.answer [] routed trivial times
  have stored := Tasks.Reaches.answer [] timed trivial stores
  exact ⟨_, stored, ⟨_, List.mem_cons_of_mem _ List.mem_cons_self, rfl⟩, rfl,
    stored_within_rate 1 0 0 rfl rfl rfl rfl stored⟩

end ConnectForge
