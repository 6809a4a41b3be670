import PresenceTracker.Bus.Hub
import PresenceTracker.Proofs.Bus.Channel
import PresenceTracker.Proofs.Bus.Delivery

/-!
# Delivery in memory

Nodes of one process join a hub and register their handlers; then they publish while their
listeners take what waits for them, in any interleaving. The calls for one message are one step,
as whatever happens elsewhere in the meantime only adds to what waits. As long as the channel holds
all that waits for a receiver when something is published, every node gets to see what the others
publish. That a listener drops the messages of its own node rests on the numbers of the nodes
being different, and that it receives its own messages on those of the receivers.
-/

namespace PresenceTracker

/-- A hub in use, with the ledger of what was asked of it and done. -/
structure HubRun (σ : Type) where
  /-- The hub. -/
  hub : Hub σ
  /-- The ledger. -/
  ledger : Ledger := {}

/-- A step of the nodes of a hub. -/
inductive HubStep where
  /-- A node joins. -/
  | join (name : String)
  /-- A handler is registered on a node. -/
  | subscribe (name : String) (kind : EventKind) (handler : Handler)
  /-- A node publishes an event. -/
  | publish (name : String) (event : Event)
  /-- The listener of a node takes what it receives next to the handlers, of which some fail. -/
  | listen (name : String) (verdict : Nat → Bool)

/-- A node with its handlers as they behave on one occasion. -/
def HubNode.acting (node : HubNode) (verdict : Nat → Bool) : HubNode :=
  { node with handlers := node.handlers.acting verdict }

namespace HubRun

variable {σ : Type} (channel : Broadcast (Nat × Event) σ)

/-- The listener of a node receives something and calls the handlers. -/
def listen (run : HubRun σ) (name : String) (verdict : Nat → Bool) : HubRun σ :=
  match run.hub.nodes.lookup name with
  | none => run
  | some node =>
    let (calls, state) := (Hub.listen channel (node.acting verdict)).run run.hub.state
    { hub := { run.hub with state }, ledger := run.ledger.note name calls }

/-- The nodes after a step. -/
def step (run : HubRun σ) : HubStep → HubRun σ
  | .join name => { run with hub := run.hub.join channel name }
  | .subscribe name kind handler =>
    { hub := run.hub.subscribe name kind handler
      ledger := run.ledger.register name kind handler.name }
  | .publish name event =>
    { hub := run.hub.publish channel name [event]
      ledger := run.ledger.publish name event }
  | .listen name verdict => run.listen channel name verdict

/-- Whether the channel holds one more message for every node. -/
def hasRoom (hub : Hub σ) : Bool :=
  hub.nodes.all fun entry =>
    channel.unread hub.state entry.2.receiver < channel.capacity hub.state

/-- Whether a step may be taken: nodes with names of their own join and register their handlers
before anything is published, and no receiver lags behind what is published. -/
def allows (run : HubRun σ) : HubStep → Bool
  | .join name => run.ledger.published.isEmpty && (run.hub.nodes.lookup name).isNone
  | .subscribe name _ _ => run.ledger.published.isEmpty && (run.hub.nodes.lookup name).isSome
  | .publish name _ => (run.hub.nodes.lookup name).isSome && hasRoom channel run.hub
  | .listen _ _ => true

/-- The hub before any node has joined. -/
def opened (size : Nat) : HubRun σ := { hub := Hub.opened channel size }

section Account

variable (waits : σ → Nat → Option (List (Nat × Event)))

/-- A node as far as its calls are concerned. -/
def station (state : σ) (node : HubNode) : Station where
  handlers := node.handlers
  pending := ((waits state node.receiver).getD []).map fun message =>
    (node.handlers.dispatch node.id message.1 message.2).map HandlerCall.target

/-- The nodes as far as their calls are concerned. -/
def stations (run : HubRun σ) (name : String) : Option Station :=
  (run.hub.nodes.lookup name).map (station waits run.hub.state)

/-- What holds of a node of a hub in use. -/
structure NodeSound (run : HubRun σ) (node : HubNode) : Prop where
  /-- The number of the node has been given. -/
  numbered : node.id < run.hub.joined
  /-- The channel holds all that waits for it; before the first publication that is nothing. -/
  keepsUp : ∃ messages, waits run.hub.state node.receiver = some messages ∧
    messages.length ≤ channel.capacity run.hub.state ∧
      (run.ledger.published = [] → messages = [])

/-- What holds at every moment of a hub in use. -/
structure Sound (run : HubRun σ) : Prop where
  /-- The account is in order. -/
  tallies : run.ledger.Tallies (run.stations waits)
  /-- No two nodes have the same number. -/
  ids : Apart run.hub.nodes HubNode.id
  /-- No two nodes have the same receiver. -/
  receivers : Apart run.hub.nodes HubNode.receiver
  /-- Every node keeps up. -/
  node : ∀ name node, run.hub.nodes.lookup name = some node → run.NodeSound channel waits node

end Account

variable {channel} {waits : σ → Nat → Option (List (Nat × Event))} {run : HubRun σ}
variable {name : String} {node : HubNode}

/-- A node has a station. -/
theorem stations_of_lookup (hnode : run.hub.nodes.lookup name = some node) :
    run.stations waits name = some (station waits run.hub.state node) := by
  rw [stations, hnode, Option.map_some]

/-- A node for which the same waits as before has the same station. -/
theorem stations_of_same {state : σ} (hsame : ∀ node, run.hub.nodes.lookup name = some node →
      waits state node.receiver = waits run.hub.state node.receiver) :
    (run.hub.nodes.lookup name).map (station waits state) = run.stations waits name := by
  cases hnode : run.hub.nodes.lookup name with
  | none => rw [stations, hnode, Option.map_none, Option.map_none]
  | some node => rw [stations_of_lookup hnode, Option.map_some, station, hsame node hnode, station]

section Join

variable {receiver : Nat} {state : σ}

/-- A node that has just joined. -/
def newcomer (hub : Hub σ) (receiver : Nat) : HubNode := { id := hub.joined, receiver }

/-- Where no node has the name, the one that joins is new. -/
theorem join_eq {hub : Hub σ} (hnew : hub.nodes.lookup name = none)
    (hsubscribe : channel.subscribe.run hub.state = (receiver, state)) :
    hub.join channel name =
      { state
        joined := hub.joined + 1
        nodes := hub.nodes ++ [(name, newcomer hub receiver)] } := by
  have hleave : hub.leave channel name = hub := by simp only [Hub.leave, hnew]
  simp only [Hub.join, hleave, hsubscribe, newcomer]

/-- A node that joins before the first publication is owed nothing. -/
theorem Sound.join (hchannel : channel.Documented waits) (h : run.Sound channel waits)
    (hallows : run.allows channel (.join name)) :
    (run.step channel (.join name)).Sound channel waits := by
  obtain ⟨hempty, hisNone⟩ := Bool.and_eq_true_iff.mp hallows
  have hnone : run.ledger.published = [] := List.isEmpty_iff.mp hempty
  have hnew : run.hub.nodes.lookup name = none := Option.isNone_iff_eq_none.mp hisNone
  obtain ⟨receiver, state, hsubscribe⟩ : ∃ receiver state,
      channel.subscribe.run run.hub.state = (receiver, state) := ⟨_, _, rfl⟩
  obtain ⟨hfresh, hcapacity, hwaits⟩ := hchannel.subscribe run.hub.state
  rw [hsubscribe] at hfresh hcapacity hwaits
  -- No node has the receiver of the new one, so what waits for it stays the same.
  have hapart : ∀ other one, run.hub.nodes.lookup other = some one → one.receiver ≠ receiver := by
    intro other one hone heq
    obtain ⟨messages, hmessages, -⟩ := (h.node other one hone).keepsUp
    rw [heq, hfresh] at hmessages
    cases hmessages
  have hsame : ∀ other one, run.hub.nodes.lookup other = some one →
      waits state one.receiver = waits run.hub.state one.receiver := by
    intro other one hone
    rw [hwaits, Function.update_of_ne (hapart other one hone)]
  have hself : waits state receiver = some [] := by rw [hwaits, Function.update_self]
  have hlookup := fun other => lookup_concat other hnew (newcomer run.hub receiver)
  have hcases : ∀ other one,
      (run.hub.nodes ++ [(name, newcomer run.hub receiver)]).lookup other = some one →
        (other = name ∧ one = newcomer run.hub receiver) ∨
          (other ≠ name ∧ run.hub.nodes.lookup other = some one) := by
    intro other one hone
    rw [hlookup] at hone
    exact of_set_eq_some hone
  rw [step, join_eq hnew hsubscribe]
  refine ⟨?_, h.ids.of_new hcases fun other one hone => ?_, h.receivers.of_new hcases hapart,
    fun other one hone => ?_⟩
  · have hstations : (run.stations waits) name = none := by rw [stations, hnew, Option.map_none]
    refine (h.tallies.join hnone hstations).congr fun other => ?_
    rw [stations, hlookup, Function.update_apply]
    split
    · rw [Option.map_some, station, newcomer, hself]
      rfl
    · exact stations_of_same (hsame other)
  · exact Nat.ne_of_lt (h.node other one hone).numbered
  · rcases hcases other one hone with ⟨-, rfl⟩ | ⟨-, hold⟩
    · exact ⟨Nat.lt_succ_self _, [], hself, Nat.zero_le _, fun _ => rfl⟩
    · obtain ⟨hnumbered, messages, hmessages, hholds, hidle⟩ := h.node other one hold
      refine ⟨Nat.lt_succ_of_lt hnumbered, messages, ?_, ?_, hidle⟩
      · rw [hsame other one hold, hmessages]
      · rw [hcapacity]
        exact hholds

end Join

/-- A node after a handler has been registered on one is that one or another one as it was. -/
theorem lookup_subscribe (hub : Hub σ) (name other : String) (kind : EventKind)
    (handler : Handler) :
    (hub.subscribe name kind handler).nodes.lookup other =
      if other = name then (hub.nodes.lookup name).map fun node =>
        { node with handlers := node.handlers.register kind handler }
      else hub.nodes.lookup other :=
  lookup_map_at hub.nodes name other fun node : HubNode =>
    { node with handlers := node.handlers.register kind handler }

/-- A handler that is registered before the first publication has missed nothing. -/
theorem Sound.subscribe {kind : EventKind} {handler : Handler} (h : run.Sound channel waits)
    (hallows : run.allows channel (.subscribe name kind handler)) :
    (run.step channel (.subscribe name kind handler)).Sound channel waits := by
  obtain ⟨hempty, hsome⟩ := Bool.and_eq_true_iff.mp hallows
  have hnone : run.ledger.published = [] := List.isEmpty_iff.mp hempty
  obtain ⟨node, hnode⟩ := Option.isSome_iff_exists.mp hsome
  obtain ⟨-, messages, hmessages, -, hidle⟩ := h.node name node hnode
  rw [hidle hnone] at hmessages
  have hcases : ∀ other one,
      (run.hub.subscribe name kind handler).nodes.lookup other = some one →
        ∃ old, run.hub.nodes.lookup other = some old ∧ one.id = old.id ∧
          one.receiver = old.receiver := by
    intro other one hone
    rw [lookup_subscribe] at hone
    split at hone
    · next hother =>
      obtain ⟨old, hold, rfl⟩ := Option.map_eq_some_iff.mp hone
      exact ⟨old, hother ▸ hold, rfl, rfl⟩
    · exact ⟨one, hone, rfl, rfl⟩
  refine ⟨?_, h.ids.of_same fun other one hone => ?_, h.receivers.of_same fun other one hone => ?_,
    fun other one hone => ?_⟩
  · have hregistered := h.tallies.register hnone (stations_of_lookup hnode) kind handler
      List.flatten_nil
    refine hregistered.congr fun other => ?_
    rw [stations, step, lookup_subscribe, Function.update_apply]
    split
    · simp only [hnode, Option.map_some, station, Hub.subscribe, Hub.onNode, hmessages,
        Option.getD_some, List.map_nil]
    · rfl
  · obtain ⟨old, hold, hid, -⟩ := hcases other one hone
    exact ⟨old, hold, hid⟩
  · obtain ⟨old, hold, -, hreceiver⟩ := hcases other one hone
    exact ⟨old, hold, hreceiver⟩
  · obtain ⟨old, hold, hid, hreceiver⟩ := hcases other one hone
    obtain ⟨hnumbered, hkeepsUp⟩ := h.node other old hold
    refine ⟨hid ▸ hnumbered, ?_⟩
    rw [hreceiver]
    exact hkeepsUp

/-- What a node publishes waits for every node, and will lead there to the calls that are due. -/
theorem Sound.publish (hchannel : channel.Documented waits) {event : Event}
    (h : run.Sound channel waits) (hallows : run.allows channel (.publish name event)) :
    (run.step channel (.publish name event)).Sound channel waits := by
  obtain ⟨hsome, hroom⟩ := Bool.and_eq_true_iff.mp hallows
  obtain ⟨origin, horigin⟩ := Option.isSome_iff_exists.mp hsome
  obtain ⟨state, hsend⟩ : ∃ state,
      ((channel.send (origin.id, event)).run run.hub.state).2 = state := ⟨_, rfl⟩
  obtain ⟨hcapacity, hwaits⟩ := hchannel.send (origin.id, event) run.hub.state
  rw [hsend] at hcapacity hwaits
  have hpublish : run.hub.publish channel name [event] = { run.hub with state } := by
    simp only [Hub.publish, horigin, ← hsend]
    rfl
  rw [step, hpublish]
  refine ⟨h.tallies.publish name event fun other => ?_, h.ids, h.receivers,
    fun other one hone => ?_⟩
  · cases hold : run.hub.nodes.lookup other with
    | none => simp only [stations, hold, Option.map_none]
    | some one =>
      obtain ⟨-, messages, hmessages, -⟩ := h.node other one hold
      have hstation : run.stations waits other = some (station waits run.hub.state one) :=
        stations_of_lookup hold
      have hhandlers := h.tallies.handlers other _ hstation
      -- The number tells the listener what the name says: whether the event is its own.
      have hown : origin.id = one.id ↔ name = other := h.ids.mark_eq_iff horigin hold
      rw [hstation, Option.map_some, stations, hold, Option.map_some, ← hhandlers]
      simp only [station, Station.expect, hwaits, hmessages, Option.map_some, Option.getD_some,
        List.map_append, List.map_singleton, HandlerTable.dispatch_target, hown]
  · obtain ⟨hnumbered, messages, hmessages, -, -⟩ := h.node other one hone
    have hholds : messages.length < channel.capacity run.hub.state := by
      have hroom' := of_decide_eq_true (List.all_eq_true.mp hroom _ (mem_of_lookup hone))
      rwa [hchannel.unread one.receiver run.hub.state messages hmessages] at hroom'
    refine ⟨hnumbered, messages ++ [(origin.id, event)], ?_, ?_, ?_⟩
    · rw [hwaits, hmessages, Option.map_some]
    · rw [List.length_append, List.length_singleton, hcapacity]
      exact hholds
    · exact fun hnone => absurd hnone (List.append_ne_nil_of_right_ne_nil _ (List.cons_ne_nil _ _))

/-- The calls for what a node receives, whichever handlers fail, are those that were to come. -/
theorem respond_target (node : HubNode) {capacity : Nat} (messages : List (Nat × Event))
    (hholds : messages.length ≤ capacity) (verdict : Nat → Bool) :
    (((Receipt.next capacity messages).1.elim [] (node.acting verdict).respond).map
        HandlerCall.target =
      (messages.map fun message => (node.handlers.dispatch node.id message.1 message.2).map
        HandlerCall.target).headD []) ∧
      (Receipt.next capacity messages).2 = messages.tail := by
  cases messages with
  | nil => exact ⟨rfl, rfl⟩
  | cons first rest =>
    rw [Receipt.next_of_le hholds]
    exact ⟨node.handlers.dispatch_acting node.id first.1 first.2 verdict, rfl⟩

/-- What the listener of a node does: it takes the oldest message, if one waits, and makes the calls
for it. -/
theorem Sound.listen_eq (hchannel : channel.Documented waits) (h : run.Sound channel waits)
    (hnode : run.hub.nodes.lookup name = some node) (verdict : Nat → Bool) :
    ∃ calls state, run.listen channel name verdict =
        { hub := { run.hub with state }, ledger := run.ledger.note name calls } ∧
      calls.map HandlerCall.target = (station waits run.hub.state node).pending.headD [] ∧
      channel.Leaves waits run.hub.state (Function.update (waits run.hub.state) node.receiver
        ((waits run.hub.state node.receiver).map List.tail)) state := by
  obtain ⟨-, messages, hmessages, hholds, -⟩ := h.node name node hnode
  obtain ⟨htarget, htail⟩ := respond_target node messages hholds verdict
  have hlisten : Ensures (Hub.listen channel (node.acting verdict)) run.hub.state
      fun calls state =>
        calls.map HandlerCall.target = (station waits run.hub.state node).pending.headD [] ∧
        channel.Leaves waits run.hub.state (Function.update (waits run.hub.state) node.receiver
          ((waits run.hub.state node.receiver).map List.tail)) state := by
    refine (hchannel.receive node.receiver run.hub.state messages hmessages).bind
      fun receipt state hreceived => ensures_pure ?_
    obtain ⟨rfl, hleaves⟩ := hreceived
    rw [station, hmessages, Option.map_some, ← htail]
    exact ⟨htarget, hleaves⟩
  refine ⟨_, _, ?_, hlisten⟩
  rw [HubRun.listen, hnode]
  rfl

/-- A listener keeps the account, and leaves its node with all that waited but the oldest
message. -/
theorem Sound.listen (hchannel : channel.Documented waits) (h : run.Sound channel waits)
    (hnode : run.hub.nodes.lookup name = some node) (verdict : Nat → Bool) :
    (run.listen channel name verdict).Sound channel waits ∧
      (run.listen channel name verdict).stations waits name =
        some (station waits run.hub.state node).rest ∧
      ∃ calls, (run.listen channel name verdict).ledger = run.ledger.note name calls := by
  obtain ⟨calls, state, hlisten, hcalls, hcapacity, hwaits⟩ := h.listen_eq hchannel hnode verdict
  obtain ⟨-, messages, hmessages, -⟩ := h.node name node hnode
  have hself : waits state node.receiver = some messages.tail := by
    rw [hwaits, Function.update_self, hmessages, Option.map_some]
  have hsame : ∀ other one, other ≠ name → run.hub.nodes.lookup other = some one →
      waits state one.receiver = waits run.hub.state one.receiver := by
    intro other one hother hone
    have hne : one.receiver ≠ node.receiver := fun heq =>
      hother (h.receivers other name one node hone hnode heq)
    rw [hwaits, Function.update_of_ne hne]
  have hrest : station waits state node = (station waits run.hub.state node).rest := by
    rw [station, hself, station, hmessages, Station.rest, Option.getD_some, Option.getD_some,
      List.map_tail]
  rw [hlisten]
  refine ⟨⟨?_, h.ids, h.receivers, fun other one hone => ?_⟩, ?_, calls, rfl⟩
  · have hstation : run.stations waits name = some (station waits run.hub.state node) :=
      stations_of_lookup hnode
    refine (h.tallies.note hstation hcalls).congr fun other => ?_
    rw [Function.update_apply]
    split
    · next hother => rw [hother, stations, hnode, Option.map_some, hrest]
    · next hother => exact stations_of_same fun one hone => hsame other one hother hone
  · obtain ⟨hnumbered, waiting, hwaiting, hholds, hidle⟩ := h.node other one hone
    by_cases hother : other = name
    · subst hother
      obtain rfl : node = one := Option.some.inj (hnode.symm.trans hone)
      obtain rfl : messages = waiting := Option.some.inj (hmessages.symm.trans hwaiting)
      have hlength : messages.tail.length ≤ messages.length := List.length_tail ▸ Nat.sub_le _ _
      refine ⟨hnumbered, messages.tail, hself, ?_, fun hnone => ?_⟩
      · rw [hcapacity]
        exact Nat.le_trans hlength hholds
      · have hunpublished : run.ledger.published = [] := hnone
        rw [hidle hunpublished, List.tail_nil]
    · refine ⟨hnumbered, waiting, ?_, ?_, hidle⟩
      · rw [hsame other one hother hone, hwaiting]
      · rw [hcapacity]
        exact hholds
  · rw [stations, hnode, Option.map_some, hrest]

/-- Every step that may be taken keeps the account. -/
theorem Sound.step (hchannel : channel.Documented waits) (h : run.Sound channel waits)
    {step : HubStep} (hallows : run.allows channel step) :
    (run.step channel step).Sound channel waits := by
  cases step with
  | join name => exact h.join hchannel hallows
  | subscribe name kind handler => exact h.subscribe hallows
  | publish name event => exact h.publish hchannel hallows
  | listen name verdict =>
    cases hnode : run.hub.nodes.lookup name with
    | none =>
      rw [HubRun.step, HubRun.listen, hnode]
      exact h
    | some node => exact (h.listen hchannel hnode verdict).1

end HubRun

end PresenceTracker
