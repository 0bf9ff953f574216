import ContainerAnomaly.Lib.Machine

/-!
# Bounded channels with a sender that waits

A channel holds as many values as it has room for. Its sender has a list of values to send; it
waits while the channel is full, and makes no new values before the last is sent. Values are
received in the order they are made, none twice and none left out (`Outbox.run`).
-/

namespace ContainerAnomaly.Lib

/-- A buffered channel. -/
structure Channel (α : Type) (capacity : Nat) where
  /-- The items, in the order in which they were sent. -/
  queue : List α
  /-- The channel never holds more than its capacity. -/
  bounded : queue.length ≤ capacity

namespace Channel

variable {α : Type} {capacity : Nat}

/-- A channel that nothing was sent on. -/
def empty : Channel α capacity := ⟨[], Nat.zero_le _⟩

/-- Send a value, when there is room. -/
def send (channel : Channel α capacity) (value : α) : Option (Channel α capacity) :=
  if room : channel.queue.length < capacity then
    some ⟨channel.queue ++ [value], by
      rw [List.length_append]
      exact room⟩
  else none

/-- Receive the first value, when there is one. -/
def receive (channel : Channel α capacity) : Option (α × Channel α capacity) :=
  match channel with
  | ⟨[], _⟩ => none
  | ⟨value :: queue, bounded⟩ =>
    some (value, ⟨queue, Nat.le_of_succ_le bounded⟩)

/-- Sending puts a value at the end. -/
theorem queue_send {channel next : Channel α capacity} {value : α}
    (sent : channel.send value = some next) : next.queue = channel.queue ++ [value] := by
  unfold send at sent
  split at sent
  · exact (Option.some.inj sent) ▸ rfl
  · cases sent

/-- Receiving takes a value from the front. -/
theorem queue_receive {channel next : Channel α capacity} {value : α}
    (received : channel.receive = some (value, next)) :
    channel.queue = value :: next.queue := by
  obtain ⟨queue, bounded⟩ := channel
  cases queue with
  | nil => cases received
  | cons first queue =>
    obtain ⟨rfl, rfl⟩ := Prod.mk.inj (Option.some.inj received)
    rfl

end Channel

/-- A channel and what its sender has still to send. -/
structure Outbox (α : Type) (capacity : Nat) where
  /-- The items that are still to be sent. -/
  waiting : List α
  /-- The channel for them. -/
  channel : Channel α capacity

/-- What happens at a channel: the sender makes some values, sends the first of them, or a value is
received. -/
inductive OutboxStep (α : Type) where
  | make (values : List α)
  | push
  | pull

namespace Outbox

variable {α : Type} {capacity : Nat}

/-- A channel before anything is made. -/
def empty : Outbox α capacity := ⟨[], .empty⟩

/-- The sender has nothing to send. -/
def Idle (outbox : Outbox α capacity) : Prop := outbox.waiting = []

instance (outbox : Outbox α capacity) : Decidable outbox.Idle := by
  unfold Idle
  cases outbox.waiting with
  | nil => exact isTrue rfl
  | cons value values => exact isFalse (List.cons_ne_nil value values)

/-- The values made and not yet received, the first one first. -/
def inFlight (outbox : Outbox α capacity) : List α := outbox.channel.queue ++ outbox.waiting

/-- The sender makes some values, unless it is still sending. -/
def make (outbox : Outbox α capacity) (values : List α) : Outbox α capacity :=
  if outbox.Idle then { outbox with waiting := values } else outbox

/-- The sender sends its first value, unless the channel is full. -/
def push (outbox : Outbox α capacity) : Outbox α capacity :=
  match outbox.waiting with
  | [] => outbox
  | value :: values =>
    match outbox.channel.send value with
    | some channel => ⟨values, channel⟩
    | none => outbox

/-- The first value is received, when there is one. -/
def pull (outbox : Outbox α capacity) : Outbox α capacity × Option α :=
  match outbox.channel.receive with
  | some (value, channel) => ({ outbox with channel }, some value)
  | none => (outbox, none)

/-- Values that are made come last. -/
theorem inFlight_make (outbox : Outbox α capacity) (values : List α) :
    (outbox.make values).inFlight =
      outbox.inFlight ++ if outbox.Idle then values else [] := by
  unfold make
  by_cases idle : outbox.Idle
  · have none_waiting : outbox.waiting = [] := idle
    simp [inFlight, idle, none_waiting]
  · simp [idle]

/-- Sending leaves every value in its place. -/
theorem inFlight_push (outbox : Outbox α capacity) : outbox.push.inFlight = outbox.inFlight := by
  unfold push
  cases first : outbox.waiting with
  | nil => rfl
  | cons value values =>
    cases sent : outbox.channel.send value with
    | none => simp only [sent]
    | some channel =>
      simp only [sent]
      show channel.queue ++ values = outbox.channel.queue ++ outbox.waiting
      rw [Channel.queue_send sent, first, List.append_assoc]
      rfl

/-- What is received was first. -/
theorem inFlight_pull (outbox : Outbox α capacity) :
    outbox.inFlight = outbox.pull.2.toList ++ outbox.pull.1.inFlight := by
  unfold pull
  cases received : outbox.channel.receive with
  | none => rfl
  | some result =>
    obtain ⟨value, channel⟩ := result
    show outbox.channel.queue ++ outbox.waiting = value :: (channel.queue ++ outbox.waiting)
    rw [Channel.queue_receive received]
    rfl

/-- A channel as a machine that puts out what is received. -/
def machine (α : Type) (capacity : Nat) : Machine (Outbox α capacity) (OutboxStep α) α where
  step outbox
    | .make values => (outbox.make values, [])
    | .push => (outbox.push, [])
    | .pull => (outbox.pull.1, outbox.pull.2.toList)

/-- The values a step makes. -/
def made (moment : Outbox α capacity × OutboxStep α) : List α :=
  match moment.2 with
  | .make values => if moment.1.Idle then values else []
  | _ => []

/-- One step keeps the values in order. -/
theorem step_order (outbox : Outbox α capacity) (input : OutboxStep α) :
    ((machine α capacity).step outbox input).2 ++
        ((machine α capacity).step outbox input).1.inFlight =
      outbox.inFlight ++ made (outbox, input) := by
  cases input with
  | make values => exact outbox.inFlight_make values
  | push => exact outbox.inFlight_push.trans (List.append_nil _).symm
  | pull => exact outbox.inFlight_pull.symm.trans (List.append_nil _).symm

/-- In every run, what was received and what is in flight is what was made, in order. -/
theorem run (outbox : Outbox α capacity) (steps : List (OutboxStep α)) :
    (machine α capacity).outputs outbox steps ++
        ((machine α capacity).final outbox steps).inFlight =
      outbox.inFlight ++ ((machine α capacity).trace outbox steps).flatMap made := by
  induction steps generalizing outbox with
  | nil => simp [Machine.outputs]
  | cons input steps ih =>
    rw [Machine.outputs_cons, Machine.final_cons, List.append_assoc, ih, ← List.append_assoc,
      step_order, List.append_assoc]
    rfl

/-- A step leaves as many values waiting as it found or makes. -/
theorem length_waiting_step (outbox : Outbox α capacity) (input : OutboxStep α) {most : Nat}
    (few : outbox.waiting.length ≤ most)
    (makes : ∀ values, input = .make values → values.length ≤ most) :
    ((machine α capacity).step outbox input).1.waiting.length ≤ most := by
  cases input with
  | make values =>
    show (outbox.make values).waiting.length ≤ most
    unfold make
    split
    · exact makes values rfl
    · exact few
  | push =>
    have shorter : outbox.push.waiting.length ≤ outbox.waiting.length := by
      unfold push
      split
      · exact Nat.le_refl _
      · rename_i value values first
        split
        · rw [first]
          exact Nat.le_succ _
        · exact Nat.le_refl _
    exact Nat.le_trans shorter few
  | pull =>
    show outbox.pull.1.waiting.length ≤ most
    unfold pull
    split <;> exact few

/-- No more is ever in flight than the channel holds and its sender makes at once. -/
theorem length_inFlight (steps : List (OutboxStep α)) {most : Nat}
    (makes : ∀ values, .make values ∈ steps → values.length ≤ most) :
    ((machine α capacity).final .empty steps).inFlight.length ≤ capacity + most := by
  have waiting : ((machine α capacity).final .empty steps).waiting.length ≤ most := by
    induction steps using List.reverseRecOn with
    | nil => exact Nat.zero_le _
    | append_singleton steps input ih =>
      rw [Machine.final_snoc]
      refine length_waiting_step _ input (ih fun values inside => ?_) fun values made => ?_
      · exact makes values (List.mem_append_left _ inside)
      · exact makes values (List.mem_append_right _ (made ▸ List.mem_cons_self))
  rw [inFlight, List.length_append]
  exact Nat.add_le_add ((machine α capacity).final .empty steps).channel.bounded waiting

end Outbox

end ContainerAnomaly.Lib
