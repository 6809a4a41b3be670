import Mathlib.Logic.Function.Basic
import PresenceTracker.Bus.Broadcast
import PresenceTracker.Proofs.Engine.Ensures

/-!
# What a channel for broadcasts does

What a channel is said to do speaks of the messages that wait for each receiver: those that were
sent since it subscribed and that it has not received, whether it has lost them by now or not. A
receiver that keeps up receives each of them once and in order, and one that lags behind skips as
many as the channel does not hold. The channel that keeps a queue for each receiver is one that
does all this.
-/

namespace PresenceTracker

namespace Broadcast

variable {α σ : Type}

/-- A call leaves the channel with certain messages waiting. It holds as many as before. -/
structure Leaves (channel : Broadcast α σ) (waits : σ → Nat → Option (List α)) (state : σ)
    (waiting : Nat → Option (List α)) (later : σ) : Prop where
  /-- The channel holds as many messages as before. -/
  capacity : channel.capacity later = channel.capacity state
  /-- What waits for each receiver. -/
  waits : ∀ receiver, waits later receiver = waiting receiver

/-- What a channel does, as it is documented. The messages that wait for a receiver, the oldest
first, are given by `waits`, which gives nothing for a number that is no receiver. -/
structure Documented (channel : Broadcast α σ) (waits : σ → Nat → Option (List α)) : Prop where
  /-- A new channel has no receivers. -/
  build : ∀ size receiver, waits (channel.build size) receiver = none
  /-- It holds no fewer messages than are asked for. -/
  holds : ∀ size, size ≤ channel.capacity (channel.build size)
  /-- A new receiver has another number than those there are, and nothing waits for it. -/
  subscribe : ∀ state, Ensures channel.subscribe state fun receiver later =>
    waits state receiver = none ∧
      channel.Leaves waits state (Function.update (waits state) receiver (some [])) later
  /-- A receiver can be taken away. -/
  drop : ∀ receiver state, Ensures (channel.drop receiver) state fun _ later =>
    channel.Leaves waits state (Function.update (waits state) receiver none) later
  /-- What is sent waits for every receiver, behind what has been sent before. -/
  send : ∀ message state, Ensures (channel.send message) state fun _ later =>
    channel.Leaves waits state (fun receiver => (waits state receiver).map (· ++ [message])) later
  /-- A receiver receives the oldest message, or is told how many it has lost. -/
  receive : ∀ receiver state messages, waits state receiver = some messages →
    Ensures (channel.receive receiver) state fun receipt later =>
      receipt = (Receipt.next (channel.capacity state) messages).1 ∧
        channel.Leaves waits state (Function.update (waits state) receiver
          (some (Receipt.next (channel.capacity state) messages).2)) later
  /-- The messages that wait are counted. -/
  unread : ∀ receiver state messages, waits state receiver = some messages →
    channel.unread state receiver = messages.length

end Broadcast

namespace Receipt

variable {α : Type} {capacity : Nat} {first : α} {rest : List α}

/-- A receiver that keeps up receives the oldest message. -/
theorem next_of_le (h : (first :: rest).length ≤ capacity) :
    next capacity (first :: rest) = (some (message first), rest) :=
  if_pos (Nat.sub_eq_zero_of_le h)

/-- A receiver that lags behind is told how many messages it has lost. -/
theorem next_of_lt (h : capacity < (first :: rest).length) :
    next capacity (first :: rest) = (some (lagged ((first :: rest).length - capacity)),
      (first :: rest).drop ((first :: rest).length - capacity)) :=
  if_neg (Nat.sub_ne_zero_of_lt h)

end Receipt

namespace Broadcast.Documented

variable {α σ : Type} {channel : Broadcast α σ} {waits : σ → Nat → Option (List α)}

/-- What is sent one after the other waits in that order. -/
theorem sendAll (h : channel.Documented waits) (sent : List α) (state : σ) :
    Ensures (sent.forM channel.send) state fun _ later =>
      channel.Leaves waits state
        (fun receiver => (waits state receiver).map (· ++ sent)) later := by
  induction sent generalizing state with
  | nil => exact ensures_pure ⟨rfl, fun receiver => by simp⟩
  | cons message rest ih =>
    refine (h.send message state).bind fun _ between hbetween => ?_
    refine (ih between).mono fun _ later hlater => ⟨hlater.capacity.trans hbetween.capacity, ?_⟩
    intro receiver
    rw [hlater.waits, hbetween.waits, Option.map_map]
    refine congrArg (fun add => (waits state receiver).map add) (funext fun messages => ?_)
    exact List.append_assoc messages [message] rest

/-- A receiver that receives as often as messages wait for it gets those that the channel holds. -/
theorem receiveWithin (h : channel.Documented waits) (receiver bound : Nat) {state : σ}
    {messages : List α} (hwaits : waits state receiver = some messages)
    (hbound : messages.length ≤ bound) :
    Ensures (channel.receiveWithin receiver bound) state fun receipts _ =>
      receipts.filterMap Receipt.message? =
        messages.drop (messages.length - channel.capacity state) := by
  induction bound generalizing state messages with
  | zero =>
    obtain rfl := List.eq_nil_of_length_eq_zero (Nat.le_zero.mp hbound)
    exact ensures_pure List.drop_nil.symm
  | succ bound ih =>
    refine (h.receive receiver state messages hwaits).bind fun receipt later hlater => ?_
    obtain ⟨rfl, hleaves⟩ := hlater
    have hnext := hleaves.waits receiver
    rw [Function.update_self] at hnext
    cases messages with
    | nil => exact ensures_pure List.drop_nil.symm
    | cons first rest =>
      rcases Nat.lt_or_ge (channel.capacity state) (first :: rest).length with hlags | hkeeps
      · rw [Receipt.next_of_lt hlags] at hnext ⊢
        refine (ih hnext ?_).bind fun receipts _ hreceipts => ensures_pure ?_
        · rw [List.length_drop]
          omega
        · rw [List.filterMap_cons_none rfl, hreceipts, hleaves.capacity, List.length_drop,
            Nat.sub_sub_self (Nat.le_of_lt hlags), Nat.sub_self, List.drop_zero]
      · rw [Receipt.next_of_le hkeeps] at hnext ⊢
        refine (ih hnext (Nat.le_of_succ_le_succ hbound)).bind fun receipts _ hreceipts =>
          ensures_pure ?_
        have hfirst : (Receipt.message first).message? = some first := rfl
        rw [List.filterMap_cons_some hfirst, hreceipts, hleaves.capacity,
          Nat.sub_eq_zero_of_le hkeeps, Nat.sub_eq_zero_of_le (Nat.le_of_succ_le hkeeps)]
        rfl

/-- A receiver that begins to receive after messages have been sent gets those that the channel
holds. -/
theorem received_relay (h : channel.Documented waits) (size : Nat) (sent : List α) :
    (channel.relay size sent).filterMap Receipt.message? =
      sent.drop (sent.length - channel.capacity (channel.build size)) := by
  suffices hensures : Ensures (channel.subscribe >>= fun receiver => do
      sent.forM channel.send
      channel.receiveAll receiver) (channel.build size) fun receipts _ =>
        receipts.filterMap Receipt.message? =
          sent.drop (sent.length - channel.capacity (channel.build size)) from hensures
  refine (h.subscribe (channel.build size)).bind fun receiver opened hopened => ?_
  refine (h.sendAll sent opened).bind fun _ later hlater => ?_
  have hwaits : waits later receiver = some sent := by
    rw [hlater.waits, hopened.2.waits, Function.update_self, Option.map_some, List.nil_append]
  have hcapacity : channel.capacity later = channel.capacity (channel.build size) :=
    hlater.capacity.trans hopened.2.capacity
  refine ensures_get_bind ?_
  rw [h.unread receiver later sent hwaits, ← hcapacity]
  exact h.receiveWithin receiver sent.length hwaits (Nat.le_refl _)

end Broadcast.Documented

namespace Queues

variable {α : Type}

/-- The queues after that of one receiver has become another one. -/
theorem queue?_set {queues : Queues α} {receiver : Nat} {queue : Option (List α)}
    (h : queues.queue? receiver = none → queue = none) (other : Nat) :
    (queues.waiting.set receiver queue)[other]?.join =
      Function.update queues.queue? receiver queue other := by
  rw [List.getElem?_set, Function.update_apply]
  by_cases hother : receiver = other
  · rw [if_pos hother, if_pos hother.symm]
    by_cases hlt : receiver < queues.waiting.length
    · rw [if_pos hlt, Option.join_some]
    · have hnone : queues.queue? receiver = none := by
        rw [queue?, List.getElem?_eq_none (Nat.le_of_not_lt hlt), Option.join_none]
      rw [if_neg hlt, Option.join_none, h hnone]
  · rw [if_neg hother, if_neg (Ne.symm hother), queue?]

/-- The queues after one has been added at the end. -/
theorem queue?_concat (queues : Queues α) (other : Nat) :
    (queues.waiting ++ [some []])[other]?.join =
      Function.update queues.queue? queues.waiting.length (some []) other := by
  rw [Function.update_apply]
  rcases Nat.lt_trichotomy other queues.waiting.length with hlt | rfl | hgt
  · rw [List.getElem?_append_left hlt, if_neg (Nat.ne_of_lt hlt), queue?]
  · rw [List.getElem?_concat_length, if_pos rfl, Option.join_some]
  · rw [if_neg (Nat.ne_of_gt hgt), queue?, List.getElem?_eq_none (Nat.le_of_lt hgt),
      List.getElem?_eq_none]
    rw [List.length_append, List.length_singleton]
    exact hgt

/-- What is rounded up is no less than before. -/
theorem le_roundedUp (size : Nat) : size ≤ roundedUp size := by
  rw [roundedUp]
  split
  · assumption
  · have hlt : size - 1 < Nat.pow 2 ((size - 1).log2 + 1) := Nat.lt_log2_self
    exact Nat.le_of_pred_lt hlt

/-- The channel with queues does what channels are documented to do. -/
theorem channel_documented : (channel : Broadcast α (Queues α)).Documented queue? where
  build _ _ := rfl
  holds := le_roundedUp
  subscribe state := by
    refine ⟨?_, rfl, queue?_concat state⟩
    show state.waiting[state.waiting.length]?.join = none
    rw [List.getElem?_eq_none (Nat.le_refl _), Option.join_none]
  drop receiver state := ⟨rfl, queue?_set fun _ => rfl⟩
  send message state := by
    refine ⟨rfl, fun receiver => ?_⟩
    show (state.waiting.map (Option.map (· ++ [message])))[receiver]?.join = _
    rw [List.getElem?_map, queue?]
    rcases state.waiting[receiver]? with _ | _ | _ <;> rfl
  receive receiver state messages h := by
    have htake : state.take receiver = ((Receipt.next state.capacity messages).1,
        { state with
          waiting := state.waiting.set receiver
            (some (Receipt.next state.capacity messages).2) }) := by
      simp only [take, h]
    show (state.take receiver).1 = _ ∧ Broadcast.Leaves _ _ _ _ (state.take receiver).2
    rw [htake]
    exact ⟨rfl, rfl, queue?_set fun hnone => by simp [h] at hnone⟩
  unread receiver state messages h := by
    show ((state.queue? receiver).getD []).length = messages.length
    rw [h, Option.getD_some]

end Queues

end PresenceTracker
