import ConnectForge.Core.Error
import ConnectForge.Types.Connector

namespace ConnectForge.Infra

/-! Reference connectors: the sinks, and the dead-letter queue in memory. -/

/-- A sink that records every delivered record. -/
structure CollectingSink where
  delivered : List Record

namespace CollectingSink

def new : CollectingSink := ⟨[]⟩

def deliver (sink : CollectingSink) (records : List Record) : Except PortError Unit × CollectingSink :=
  (.ok (), { delivered := sink.delivered ++ records })

end CollectingSink

/-- A sink that fails records whose offset is a multiple of `failEvery`; none if
that is zero. -/
structure FailingSink where
  failEvery : Nat
  delivered : List Record

namespace FailingSink

def new (failEvery : Nat) : FailingSink := ⟨failEvery, []⟩

def poison (failEvery : Nat) (record : Record) : Bool :=
  failEvery != 0 && record.offset % failEvery == 0

def poisonError (record : Record) : PortError :=
  .permanent ("poison record at offset " ++ record.offset.repr)

/-- Deliver a batch, or nothing of it if there is poison in it. -/
def deliver (sink : FailingSink) (records : List Record) : Except PortError Unit × FailingSink :=
  match records.find? (poison sink.failEvery) with
  | some record => (.error (poisonError record), sink)
  | none => (.ok (), { sink with delivered := sink.delivered ++ records })

variable {sink : FailingSink} {record : Record}

theorem deliver_poison (poisoned : poison sink.failEvery record = true) :
    sink.deliver [record] = (.error (poisonError record), sink) := by
  simp [deliver, poisoned]

theorem deliver_sound (sound : poison sink.failEvery record = false) :
    sink.deliver [record] = (.ok (), { sink with delivered := sink.delivered ++ [record] }) := by
  simp [deliver, sound]

@[simp] theorem isRetryable_poisonError (record : Record) : (poisonError record).isRetryable = false := rfl

/-- The records of a list that are delivered one by one, and those that are not. -/
def accepted (failEvery : Nat) (records : List Record) : List Record :=
  records.filter fun record => !poison failEvery record

def poisoned (failEvery : Nat) (records : List Record) : List Record :=
  records.filter (poison failEvery)

section Sorting

variable {failEvery : Nat} {records : List Record}

@[simp] theorem accepted_nil : accepted failEvery [] = [] := rfl

@[simp] theorem poisoned_nil : poisoned failEvery [] = [] := rfl

@[simp] theorem accepted_append (first second : List Record) :
    accepted failEvery (first ++ second) = accepted failEvery first ++ accepted failEvery second := by
  simp [accepted]

@[simp] theorem poisoned_append (first second : List Record) :
    poisoned failEvery (first ++ second) = poisoned failEvery first ++ poisoned failEvery second := by
  simp [poisoned]

theorem accepted_cons_poison (poison : poison failEvery record = true) :
    accepted failEvery (record :: records) = accepted failEvery records := by
  simp [accepted, poison]

theorem accepted_cons_sound (sound : poison failEvery record = false) :
    accepted failEvery (record :: records) = record :: accepted failEvery records := by
  simp [accepted, sound]

theorem poisoned_cons_poison (poison : poison failEvery record = true) :
    poisoned failEvery (record :: records) = record :: poisoned failEvery records := by
  simp [poisoned, poison]

theorem poisoned_cons_sound (sound : poison failEvery record = false) :
    poisoned failEvery (record :: records) = poisoned failEvery records := by
  simp [poisoned, sound]

/-- Every record is one or the other. -/
theorem length_sorted (failEvery : Nat) (records : List Record) :
    (accepted failEvery records).length + (poisoned failEvery records).length = records.length := by
  induction records with
  | nil => rfl
  | cons record rest ih =>
      by_cases poison : poison failEvery record = true
      · rw [accepted_cons_poison poison, poisoned_cons_poison poison, List.length_cons, List.length_cons]
        omega
      · rw [Bool.not_eq_true] at poison
        rw [accepted_cons_sound poison, poisoned_cons_sound poison, List.length_cons, List.length_cons]
        omega

/-- Of consecutive offsets every `failEvery`-th is poison, from zero on. -/
theorem length_poisoned {start : Nat} (numbered : Numbered start records) (positive : 0 < failEvery) :
    (start + records.length + failEvery - 1) / failEvery =
      (start + failEvery - 1) / failEvery + (poisoned failEvery records).length := by
  induction records generalizing start with
  | nil => rfl
  | cons record rest ih =>
      obtain ⟨offset, following⟩ := numbered_cons.mp numbered
      have further := ih following
      have shift : start + 1 + failEvery - 1 = (start + failEvery - 1) + 1 := by omega
      have total : start + (record :: rest).length = start + 1 + rest.length := by
        rw [List.length_cons]
        omega
      rw [total, further, shift, Nat.succ_div]
      have next : start + failEvery - 1 + 1 = start + failEvery := by omega
      have divides : failEvery ∣ start + failEvery - 1 + 1 ↔ start % failEvery = 0 := by
        rw [next, Nat.dvd_add_self_right, Nat.dvd_iff_mod_eq_zero]
      have nonzero : failEvery ≠ 0 := Nat.ne_of_gt positive
      by_cases multiple : start % failEvery = 0
      · have bad : poison failEvery record = true := by simp [poison, nonzero, offset, multiple]
        rw [if_pos (divides.mpr multiple), poisoned_cons_poison bad, List.length_cons]
        omega
      · have good : poison failEvery record = false := by simp [poison, offset, multiple]
        rw [if_neg fun both => multiple (divides.mp both), poisoned_cons_sound good, Nat.add_zero]

theorem poisoned_zero (records : List Record) : poisoned 0 records = [] := by
  simp [poisoned, poison]

end Sorting

/-- Without failures it is the collecting sink. -/
theorem deliver_zero (delivered records : List Record) :
    (FailingSink.mk 0 delivered).deliver records =
      (.ok (), ⟨0, ((CollectingSink.mk delivered).deliver records).2.delivered⟩) := by
  have none : records.find? (poison 0) = none := by simp [poison]
  simp [deliver, none, CollectingSink.deliver]

end FailingSink

/-- A dead-letter queue that retains failed records. -/
structure MemoryDeadLetterSink where
  records : List DeadLetterRecord

namespace MemoryDeadLetterSink

def new : MemoryDeadLetterSink := ⟨[]⟩

def deadLetter (queue : MemoryDeadLetterSink) (record : DeadLetterRecord) :
    Except PortError Unit × MemoryDeadLetterSink :=
  (.ok (), { records := queue.records ++ [record] })

end MemoryDeadLetterSink

end ConnectForge.Infra
