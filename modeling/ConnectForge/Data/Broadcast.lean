import Mathlib.Algebra.Order.Ring.Nat
import Mathlib.Data.List.Infix
import Mathlib.Data.Nat.Log
import Mathlib.Tactic.Common

namespace ConnectForge.Data

/-! Broadcast channels.

The operations are a parameter.  All that is assumed of them is what their
documentation says: every receiver gets the values sent since it was made, and one
that has fallen behind what the channel keeps is told how many it missed and goes
on with the oldest value kept. -/

inductive Received (α : Type) where
  | value (value : α)
  | lagged (count : Nat)
  | empty
deriving DecidableEq

/-- The operations of `tokio::sync::broadcast`. -/
structure Broadcast (α : Type) where
  Sender : Type
  Receiver : Type
  /-- None is a panic: there is no channel of this capacity. -/
  channel : Nat → Option (Sender × Receiver)
  /-- How many receivers there are, or the value back when there is none. -/
  send : Sender → α → Except α Nat × Sender
  subscribe : Sender → Receiver × Sender
  recv : Sender → Receiver → Received α × Receiver × Sender
  drop : Sender → Receiver → Sender

variable {α : Type}

/-- What a receiver is told that has these values to come, of which the channel
keeps the last `size`, and what it has to come then. -/
def deliver (size : Nat) : List α → Received α × List α
  | [] => (.empty, [])
  | value :: rest =>
      if size ≤ rest.length then
        (.lagged (rest.length + 1 - size), (value :: rest).drop (rest.length + 1 - size))
      else (.value value, rest)

/-- What the operations promise.  `Keeps size sender waiting` is the meaning of a
channel: it keeps `size` values, and these are its receivers with what each has
yet to get. -/
structure Broadcast.Lawful (ops : Broadcast α)
    (Keeps : Nat → ops.Sender → List (ops.Receiver × List α) → Prop) : Prop where
  /-- A channel may keep more than it was asked to. -/
  channel {requested sender receiver} (opened : ops.channel requested = some (sender, receiver)) :
    ∃ size, requested ≤ size ∧ Keeps size sender [(receiver, [])]
  send {size sender waiting value result after} (keeps : Keeps size sender waiting)
    (sent : ops.send sender value = (result, after)) :
    Keeps size after (waiting.map fun (receiver, pending) => (receiver, pending ++ [value]))
  subscribe {size sender waiting receiver after} (keeps : Keeps size sender waiting)
    (subscribed : ops.subscribe sender = (receiver, after)) :
    Keeps size after ((receiver, []) :: waiting)
  recv {size sender before receiver pending rest received later after}
    (keeps : Keeps size sender (before ++ (receiver, pending) :: rest))
    (answered : ops.recv sender receiver = (received, later, after)) :
    received = (deliver size pending).1 ∧
      Keeps size after (before ++ (later, (deliver size pending).2) :: rest)
  drop {size sender before receiver pending rest}
    (keeps : Keeps size sender (before ++ (receiver, pending) :: rest)) :
    Keeps size (ops.drop sender receiver) (before ++ rest)

theorem deliver_behind {size : Nat} {value : α} {rest : List α} (behind : size ≤ rest.length) :
    deliver size (value :: rest) =
      (.lagged (rest.length + 1 - size), (value :: rest).drop (rest.length + 1 - size)) :=
  if_pos behind

theorem deliver_kept {size : Nat} {value : α} {rest : List α} (kept : rest.length < size) :
    deliver size (value :: rest) = (.value value, rest) :=
  if_neg (Nat.not_le.mpr kept)

theorem deliver_suffix (size : Nat) (pending : List α) : (deliver size pending).2 <:+ pending := by
  cases pending with
  | nil => exact List.suffix_refl _
  | cons value rest =>
      rcases Nat.lt_or_ge rest.length size with kept | behind
      · rw [deliver_kept kept]
        exact List.suffix_cons _ _
      · rw [deliver_behind behind]
        exact List.drop_suffix _ _

/-- A receiver is told that there is nothing only when it has everything. -/
theorem deliver_empty {size : Nat} {pending : List α} (empty : (deliver size pending).1 = .empty) :
    pending = [] := by
  cases pending with
  | nil => rfl
  | cons value rest =>
      rcases Nat.lt_or_ge rest.length size with kept | behind
      · rw [deliver_kept kept] at empty
        cases empty
      · rw [deliver_behind behind] at empty
        cases empty

/-- What a receiver was sent since it was made, the values it was given of them, and
how many it was told that it missed. -/
structure Follower (α : Type) where
  sent : List α
  taken : List α
  missed : Nat

namespace Follower

def join : Follower α := ⟨[], [], 0⟩

def send (follower : Follower α) (value : α) : Follower α :=
  { follower with sent := follower.sent ++ [value] }

def take (follower : Follower α) : Received α → Follower α
  | .value value => { follower with taken := follower.taken ++ [value] }
  | .lagged count => { follower with missed := follower.missed + count }
  | .empty => follower

/-- What was sent is what was dealt with and what is still to come.  Of the first,
the values the channel still keeps were taken, whatever was missed. -/
structure Faithful (size : Nat) (pending : List α) (follower : Follower α) : Prop where
  conserved : ∃ seen, follower.sent = seen ++ pending ∧ follower.taken.Sublist seen ∧
    follower.taken.length + follower.missed = seen.length ∧
    seen.drop (follower.sent.length - size) <:+ follower.taken

variable {size : Nat} {pending : List α} {follower : Follower α}

theorem drop_suffix_drop {values : List α} {low high : Nat} (above : low ≤ high) :
    values.drop high <:+ values.drop low := by
  obtain ⟨extra, rfl⟩ := Nat.exists_eq_add_of_le above
  rw [← List.drop_drop]
  exact List.drop_suffix _ _

theorem Faithful.join : Faithful size [] (join : Follower α) :=
  ⟨[], rfl, List.Sublist.refl _, rfl, by simp [Follower.join]⟩

theorem Faithful.send (faithful : Faithful size pending follower) (value : α) :
    Faithful size (pending ++ [value]) (follower.send value) := by
  obtain ⟨seen, whole, ordered, counted, recent⟩ := faithful
  refine ⟨seen, by simp [Follower.send, whole], ordered, counted, ?_⟩
  refine List.IsSuffix.trans (drop_suffix_drop ?_) recent
  simp only [Follower.send, List.length_append, List.length_singleton]
  omega

theorem Faithful.recv (faithful : Faithful size pending follower) :
    Faithful size (deliver size pending).2 (follower.take (deliver size pending).1) := by
  obtain ⟨seen, whole, ordered, counted, recent⟩ := faithful
  cases pending with
  | nil => exact ⟨seen, whole, ordered, counted, recent⟩
  | cons value rest =>
      have length := congrArg List.length whole
      simp only [List.length_append, List.length_cons] at length
      rcases Nat.lt_or_ge rest.length size with kept | behind
      · rw [deliver_kept kept]
        refine ⟨seen ++ [value], ?_, ordered.append (List.Sublist.refl _), ?_, ?_⟩ <;> simp only [take]
        · rw [whole, List.append_assoc, List.singleton_append]
        · rw [List.length_append, List.length_append, List.length_singleton]
          omega
        · rw [List.drop_append_of_le_length (by omega)]
          obtain ⟨front, split⟩ := recent
          exact ⟨front, by rw [← List.append_assoc, split]⟩
      · rw [deliver_behind behind]
        refine ⟨seen ++ (value :: rest).take (rest.length + 1 - size), ?_, ?_, ?_, ?_⟩ <;>
          simp only [take]
        · rw [whole, List.append_assoc, List.take_append_drop]
        · exact ordered.trans (List.sublist_append_left _ _)
        · rw [List.length_append, List.length_take, List.length_cons]
          omega
        · -- Nothing that was dealt with is kept any more.
          rw [List.drop_eq_nil_of_le]
          · exact List.nil_suffix
          · rw [List.length_append, List.length_take, List.length_cons]
            omega

theorem Faithful.sublist (faithful : Faithful size pending follower) :
    follower.taken.Sublist follower.sent := by
  obtain ⟨seen, whole, ordered, _⟩ := faithful
  rw [whole]
  exact ordered.trans (List.sublist_append_left _ _)

/-- A receiver that missed nothing has taken everything that is not still to
come. -/
theorem Faithful.whole (faithful : Faithful size pending follower) (missed : follower.missed = 0) :
    follower.sent = follower.taken ++ pending := by
  obtain ⟨seen, whole, ordered, counted, _⟩ := faithful
  rw [whole, ordered.eq_of_length (by omega)]

/-- A receiver that has caught up got the latest values, as many as the channel
keeps. -/
theorem Faithful.latest (faithful : Faithful size [] follower) :
    follower.sent.drop (follower.sent.length - size) <:+ follower.taken := by
  obtain ⟨seen, whole, _, _, recent⟩ := faithful
  rw [List.append_nil] at whole
  rw [whole] at recent ⊢
  exact recent

end Follower

/-- A channel that keeps the latest `size` values: a receiver is the position it
stands at. -/
structure Channel (α : Type) where
  size : Nat
  history : List α
  receivers : Nat

namespace Channel

/-- The channel keeps a power of two of values, and at most `usize::MAX / 2` can be
asked for. -/
def open? (α : Type) (capacity : Nat) : Option (Channel α × Nat) :=
  if 0 < capacity ∧ capacity ≤ 9223372036854775807 then some (⟨2 ^ Nat.clog 2 capacity, [], 1⟩, 0) else none

/-- A value sent to nobody is not kept. -/
def send (channel : Channel α) (value : α) : Except α Nat × Channel α :=
  if channel.receivers = 0 then (.error value, channel)
  else (.ok channel.receivers, { channel with history := channel.history ++ [value] })

def subscribe (channel : Channel α) : Nat × Channel α :=
  (channel.history.length, { channel with receivers := channel.receivers + 1 })

def recv (channel : Channel α) (next : Nat) : Received α × Nat × Channel α :=
  match deliver channel.size (channel.history.drop next) with
  | (received, rest) => (received, channel.history.length - rest.length, channel)

def drop (channel : Channel α) (_ : Nat) : Channel α :=
  { channel with receivers := channel.receivers - 1 }

def broadcast (α : Type) : Broadcast α where
  Sender := Channel α
  Receiver := Nat
  channel := open? α
  send := send
  subscribe := subscribe
  recv := recv
  drop := drop

structure Keeps (size : Nat) (channel : Channel α) (waiting : List (Nat × List α)) : Prop where
  size : channel.size = size
  receivers : channel.receivers = waiting.length
  positions : ∀ next pending, (next, pending) ∈ waiting →
    next ≤ channel.history.length ∧ pending = channel.history.drop next

variable {size receiver : Nat} {channel after : Channel α} {waiting before rest : List (Nat × List α)}
  {pending : List α}

theorem Keeps.opened {requested : Nat} (opened : open? α requested = some (channel, receiver)) :
    requested ≤ channel.size ∧ Keeps channel.size channel [(receiver, [])] := by
  unfold open? at opened
  split at opened
  · cases opened
    refine ⟨Nat.le_pow_clog Nat.one_lt_two _, rfl, rfl, ?_⟩
    intro next pending member
    cases List.mem_singleton.mp member
    exact ⟨Nat.le_refl _, rfl⟩
  · cases opened

theorem Keeps.send (keeps : Keeps size channel waiting) (value : α) :
    Keeps size (channel.send value).2
      (waiting.map fun (receiver, pending) => (receiver, pending ++ [value])) := by
  obtain ⟨same, receivers, positions⟩ := keeps
  unfold Channel.send
  split
  · rename_i nobody
    obtain rfl : waiting = [] := List.eq_nil_of_length_eq_zero (receivers.symm.trans nobody)
    exact ⟨same, receivers, positions⟩
  · refine ⟨same, by rw [List.length_map]; exact receivers, ?_⟩
    intro next pending member
    obtain ⟨⟨_, earlier⟩, known, entry⟩ := List.mem_map.mp member
    cases entry
    obtain ⟨bounded, rfl⟩ := positions next earlier known
    exact ⟨by rw [List.length_append]; omega, (List.drop_append_of_le_length bounded).symm⟩

theorem Keeps.subscribe (keeps : Keeps size channel waiting) :
    Keeps size channel.subscribe.2 ((channel.subscribe.1, []) :: waiting) := by
  obtain ⟨same, receivers, positions⟩ := keeps
  refine ⟨same, congrArg (· + 1) receivers, ?_⟩
  intro next pending member
  rcases List.mem_cons.mp member with joined | known
  · cases joined
    exact ⟨Nat.le_refl _, List.drop_length.symm⟩
  · exact positions next pending known

/-- The positions of the receivers beside one of them. -/
theorem Keeps.others (keeps : Keeps size channel (before ++ (receiver, pending) :: rest)) {next : Nat}
    {later : List α} (stayed : (next, later) ∈ before ++ rest) :
    next ≤ channel.history.length ∧ later = channel.history.drop next := by
  apply keeps.positions
  exact ((List.Sublist.refl before).append (List.sublist_cons_self _ rest)).subset stayed

theorem Keeps.recv (keeps : Keeps size channel (before ++ (receiver, pending) :: rest)) :
    (channel.recv receiver).1 = (deliver size pending).1 ∧
      Keeps size (channel.recv receiver).2.2
        (before ++ ((channel.recv receiver).2.1, (deliver size pending).2) :: rest) := by
  obtain ⟨_, rfl⟩ := keeps.positions receiver pending List.mem_append_cons_self
  have receivers := keeps.receivers
  obtain rfl := keeps.size
  refine ⟨rfl, rfl, ?_, ?_⟩
  · rw [List.length_append, List.length_cons] at receivers ⊢
    exact receivers
  intro next later member
  rcases List.mem_append.mp member with front | back
  · exact keeps.others (List.mem_append_left _ front)
  · rcases List.mem_cons.mp back with here | behind
    · cases here
      exact ⟨Nat.sub_le _ _,
        List.suffix_iff_eq_drop.mp ((deliver_suffix _ _).trans (List.drop_suffix _ _))⟩
    · exact keeps.others (List.mem_append_right _ behind)

theorem Keeps.drop (keeps : Keeps size channel (before ++ (receiver, pending) :: rest)) :
    Keeps size (channel.drop receiver) (before ++ rest) := by
  refine ⟨keeps.size, ?_, fun _ _ => keeps.others⟩
  simp only [Channel.drop, keeps.receivers, List.length_append, List.length_cons]
  omega

theorem lawful (α : Type) : (broadcast α).Lawful Keeps where
  channel opened := ⟨_, Keeps.opened opened⟩
  send keeps sent := by
    obtain rfl := congrArg Prod.snd sent
    exact Keeps.send keeps _
  subscribe keeps subscribed := by
    cases subscribed
    exact Keeps.subscribe keeps
  recv keeps answered := by
    cases answered
    exact Keeps.recv keeps
  drop keeps := Keeps.drop keeps

end Channel

end ConnectForge.Data
