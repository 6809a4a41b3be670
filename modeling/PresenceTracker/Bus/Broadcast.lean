/-!
# Channels for broadcasts

What is sent on a channel is received, in order, by everyone who has subscribed by then. The
program does not implement such channels: it sends, and it asks what comes next, and how the
messages are kept is the affair of the channel. A channel holds a number of messages. A receiver
for which more of them wait has lost the oldest, and its next receipt says how many before it goes
on with the oldest one kept. One channel that does this is given here: it keeps for each receiver
what has been sent and not received.
-/

namespace PresenceTracker

/-- One receipt from a channel. -/
inductive Receipt (α : Type) where
  /-- A message. -/
  | message (message : α)
  /-- The number of messages lost. -/
  | lagged (count : Nat)
  deriving DecidableEq

namespace Receipt

variable {α : Type}

/-- The message of a receipt, if it brings one. -/
def message? : Receipt α → Option α
  | message received => some received
  | lagged _ => none

/-- What is received next of the messages that wait for a receiver, where a channel holds so many
of them, and what waits afterwards. -/
def next (capacity : Nat) : List α → Option (Receipt α) × List α
  | [] => (none, [])
  | first :: rest =>
    let lost := rest.length + 1 - capacity
    if lost = 0 then (some (message first), rest)
    else (some (lagged lost), (first :: rest).drop lost)

end Receipt

/-- A channel for broadcasts, with states of type `σ`. Its receivers go by numbers. -/
structure Broadcast (α σ : Type) where
  /-- A new channel that is to hold so many messages. -/
  build : Nat → σ
  /-- How many messages the channel holds. -/
  capacity : σ → Nat
  /-- Adds a receiver. -/
  subscribe : StateM σ Nat
  /-- Takes a receiver away. -/
  drop : Nat → StateM σ Unit
  /-- Sends a message. -/
  send : α → StateM σ Unit
  /-- What a receiver receives next, if anything waits for it. -/
  receive : Nat → StateM σ (Option (Receipt α))
  /-- How many messages wait for a receiver. Those that it has lost count. -/
  unread : σ → Nat → Nat
  /-- The number of receivers. -/
  receivers : σ → Nat

namespace Broadcast

variable {α σ : Type} (channel : Broadcast α σ)

/-- What a receiver receives one after the other, until nothing waits or a bound is reached. -/
def receiveWithin (receiver : Nat) : Nat → StateM σ (List (Receipt α))
  | 0 => return []
  | bound + 1 => do
    match ← channel.receive receiver with
    | none => return []
    | some receipt => return receipt :: (← receiveWithin receiver bound)

/-- All that a receiver receives. No receipt brings less than one of the messages that wait. -/
def receiveAll (receiver : Nat) : StateM σ (List (Receipt α)) := do
  channel.receiveWithin receiver (channel.unread (← get) receiver)

/-- What a receiver of a new channel receives if it does so only after messages have been sent. -/
def relay (size : Nat) (messages : List α) : List (Receipt α) :=
  let work : StateM σ (List (Receipt α)) := do
    let receiver ← channel.subscribe
    messages.forM channel.send
    channel.receiveAll receiver
  (work.run (channel.build size)).1

end Broadcast

/-- A queue of messages for each receiver, in the order in which they have subscribed. -/
structure Queues (α : Type) where
  /-- How many messages of a queue are kept. -/
  capacity : Nat
  /-- The messages that wait, the oldest first; nothing for a receiver that is gone. -/
  waiting : List (Option (List α)) := []

namespace Queues

variable {α : Type}

/-- The queue of a receiver. -/
def queue? (queues : Queues α) (receiver : Nat) : Option (List α) :=
  queues.waiting[receiver]?.join

/-- Takes what a receiver receives next out of its queue. -/
def take (queues : Queues α) (receiver : Nat) : Option (Receipt α) × Queues α :=
  match queues.queue? receiver with
  | none => (none, queues)
  | some messages =>
    let (receipt, rest) := Receipt.next queues.capacity messages
    (receipt, { queues with waiting := queues.waiting.set receiver (some rest) })

/-- The least power of two that is no less than a size. -/
def roundedUp (size : Nat) : Nat := if size ≤ 1 then 1 else Nat.pow 2 ((size - 1).log2 + 1)

/-- A channel that keeps a queue for each receiver. The number of messages that it holds is a power
of two. -/
def channel : Broadcast α (Queues α) where
  build size := { capacity := roundedUp size }
  capacity queues := queues.capacity
  subscribe queues :=
    (queues.waiting.length, { queues with waiting := queues.waiting ++ [some []] })
  drop receiver := modify fun queues =>
    { queues with waiting := queues.waiting.set receiver none }
  send message := modify fun queues =>
    { queues with waiting := queues.waiting.map (Option.map (· ++ [message])) }
  receive receiver queues := queues.take receiver
  unread queues receiver := ((queues.queue? receiver).getD []).length
  receivers queues := queues.waiting.countP Option.isSome

end Queues

end PresenceTracker
