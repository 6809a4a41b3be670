import PresenceTracker.Proofs.Bus.Delivery
import PresenceTracker.Proofs.Bus.Payload
import PresenceTracker.Proofs.Redis.PubSub

/-!
# Delivery over a server

The server hands every payload to every subscriber of its channel, the publisher included, in
the order in which the payloads come in. Nodes subscribe and register their handlers; then they
publish while their listeners take what the server has handed out, in any interleaving, and
anybody may put payloads on the channel that are no messages. Every node gets to see what the
others publish, as the other payloads lead to no call.
-/

namespace PresenceTracker

open Redis

/-- Nodes on a channel of a server with states of type `σ`, with the ledger of what was asked of
them and done. -/
structure ChannelRun (σ : Type) where
  /-- The channel. -/
  channel : String
  /-- The state of the server. -/
  state : σ
  /-- The nodes by name. -/
  nodes : List (String × RedisBus) := []
  /-- The ledger. -/
  ledger : Ledger := {}

/-- A step of the nodes of a channel. -/
inductive ChannelStep where
  /-- A node with an identifier joins. -/
  | join (name : String) (node : NodeId)
  /-- A handler is registered on a node. -/
  | subscribe (name : String) (kind : EventKind) (handler : Handler)
  /-- A node publishes an event. -/
  | publish (name : String) (event : Event)
  /-- A client of the server puts a payload on the channel. -/
  | intrude (client : String) (payload : Bytes)
  /-- The listener of a node takes the payload it receives next to the handlers, of which some
  fail. -/
  | listen (name : String) (verdict : Nat → Bool)

namespace RedisBus

/-- A node with its handlers as they behave on one occasion. -/
def acting (bus : RedisBus) (verdict : Nat → Bool) : RedisBus :=
  { bus with handlers := bus.handlers.acting verdict }

section Payloads

variable {bus : RedisBus} {payload : Bytes}

/-- A payload that is no message leads to no call. -/
theorem deliver_of_no_message (bus : RedisBus) (h : message? payload = none) :
    bus.deliver payload = [] := by
  rw [deliver, h]
  split <;> rfl

/-- A subscribed node hands the payload of an event on as what it is. -/
theorem deliver_payload (hactive : bus.subscription = .active) (origin : RedisBus) (event : Event) :
    bus.deliver (origin.payload event) =
      bus.handlers.dispatch bus.node origin.node event := by
  have hsubscribed : bus.isSubscribed = true := by simp [isSubscribed, hactive]
  rw [deliver, hsubscribed, message?_payload]
  rfl

/-- Whoever fails on an occasion, a payload leads to the same calls. -/
theorem deliver_acting (bus : RedisBus) (verdict : Nat → Bool) (payload : Bytes) :
    ((bus.acting verdict).deliver payload).map HandlerCall.target =
      (bus.deliver payload).map HandlerCall.target := by
  rw [acting, deliver, deliver, isSubscribed, isSubscribed]
  split
  · cases message? payload with
    | none => rfl
    | some message =>
      exact bus.handlers.dispatch_acting bus.node message.origin message.event verdict
  · rfl

end Payloads

end RedisBus

namespace ChannelRun

variable {σ : Type} (server : PubSub σ)

/-- A node connects to the server and asks for its subscription. -/
def join (run : ChannelRun σ) (name : String) (node : NodeId) : ChannelRun σ :=
  let (bus, state) :=
    (RedisBus.connect (server.respond (.messages name)) node run.channel).run run.state
  { run with state, nodes := (name, bus) :: run.nodes }

/-- A node registers a handler. -/
def subscribe (run : ChannelRun σ) (name : String) (kind : EventKind) (handler : Handler) :
    ChannelRun σ :=
  { run with
    nodes := run.nodes.map fun entry =>
      if entry.1 = name then (name, entry.2.subscribe kind handler) else entry
    ledger := run.ledger.register name kind handler.name }

/-- A node publishes an event. -/
def publish (run : ChannelRun σ) (name : String) (event : Event) : ChannelRun σ :=
  match run.nodes.lookup name with
  | none => run
  | some bus =>
    { run with
      state := ((bus.publish (server.respond (.commands name)) event).run run.state).2
      ledger := run.ledger.publish name event }

/-- A client puts a payload on the channel. -/
def intrude (run : ChannelRun σ) (client : String) (payload : Bytes) : ChannelRun σ :=
  let command : Command := ⟨"PUBLISH", [Bytes.ofText run.channel, payload]⟩
  { run with state := ((server.respond (.commands client) command).run run.state).2 }

/-- The listener of a node receives a payload and calls the handlers. -/
def listen (run : ChannelRun σ) (name : String) (verdict : Nat → Bool) : ChannelRun σ :=
  match run.nodes.lookup name with
  | none => run
  | some bus =>
    let (received, state) := (server.receive (.messages name)).run run.state
    { run with
      state
      ledger := run.ledger.note name (received.elim [] (bus.acting verdict).deliver) }

/-- The nodes after a step. -/
def step (run : ChannelRun σ) : ChannelStep → ChannelRun σ
  | .join name node => run.join server name node
  | .subscribe name kind handler => run.subscribe name kind handler
  | .publish name event => run.publish server name event
  | .intrude client payload => run.intrude server client payload
  | .listen name verdict => run.listen server name verdict

/-- Whether a step may be taken: nodes with names and identifiers of their own join and register
their handlers before anything is published, and only nodes put messages on the channel. -/
def allows (run : ChannelRun σ) : ChannelStep → Bool
  | .join name node =>
    run.ledger.published.isEmpty && (run.nodes.lookup name).isNone &&
      run.nodes.all fun entry => entry.2.node ≠ node
  | .subscribe name _ _ => run.ledger.published.isEmpty && (run.nodes.lookup name).isSome
  | .publish name _ => (run.nodes.lookup name).isSome
  | .intrude _ payload => (RedisBus.message? payload).isNone
  | .listen _ _ => true

/-- A channel that no node has joined yet. -/
def opened (channel : String) (state : σ) : ChannelRun σ := { channel, state }

section Account

/-- A node as far as its calls are concerned. -/
def station (state : σ) (name : String) (bus : RedisBus) : Station where
  handlers := bus.handlers
  pending := (server.waiting state (.messages name)).map fun payload =>
    (bus.deliver payload).map HandlerCall.target

/-- The nodes as far as their calls are concerned. -/
def stations (run : ChannelRun σ) (name : String) : Option Station :=
  (run.nodes.lookup name).map (station server run.state name)

/-- What holds of a node of a channel. -/
structure NodeSound (run : ChannelRun σ) (name : String) (bus : RedisBus) : Prop where
  /-- It is subscribed. -/
  subscribed : bus.subscription = .active
  /-- It publishes on the channel. -/
  onChannel : bus.channel = run.channel
  /-- The server hands it what is published there; before the first publication no message
  waits. -/
  fed : ∃ waiting, server.outlet run.state (.messages name) =
      some ⟨Bytes.ofText run.channel, waiting⟩ ∧
    (run.ledger.published = [] → ∀ payload ∈ waiting, RedisBus.message? payload = none)

/-- What holds at every moment of a channel. -/
structure Sound (run : ChannelRun σ) : Prop where
  /-- The account is in order. -/
  tallies : run.ledger.Tallies (run.stations server)
  /-- No two nodes have the same identifier. -/
  ids : Apart run.nodes RedisBus.node
  /-- Nothing is subscribed but the nodes. -/
  lines : ∀ line, server.outlet run.state line ≠ none →
    ∃ name, line = .messages name ∧ run.nodes.lookup name ≠ none
  /-- Every node is fed. -/
  node : ∀ name bus, run.nodes.lookup name = some bus → run.NodeSound server name bus

end Account

variable {server} {run : ChannelRun σ} {name : String} {bus : RedisBus}

/-- A node has a station. -/
theorem stations_of_lookup (hbus : run.nodes.lookup name = some bus) :
    run.stations server name = some (station server run.state name bus) := by
  rw [stations, hbus, Option.map_some]

/-- A node for which the same waits as before has the same station. -/
theorem stations_of_same {state : σ} (hsame : server.outlet state (.messages name) =
      server.outlet run.state (.messages name)) :
    (run.nodes.lookup name).map (station server state name) = run.stations server name := by
  cases hbus : run.nodes.lookup name with
  | none => rw [stations, hbus, Option.map_none, Option.map_none]
  | some bus =>
    rw [stations_of_lookup hbus, Option.map_some, station, PubSub.waiting, hsame, station,
      PubSub.waiting]

/-- A connection over which commands are sent is not subscribed. -/
theorem Sound.outlet_commands (h : run.Sound server) (client : String) :
    server.outlet run.state (.commands client) = none := by
  refine Decidable.not_not.mp fun hsome => ?_
  obtain ⟨name, hline, -⟩ := h.lines _ hsome
  cases hline

/-- A name of no node is not subscribed. -/
theorem Sound.outlet_messages (h : run.Sound server) (hnew : run.nodes.lookup name = none) :
    server.outlet run.state (.messages name) = none := by
  refine Decidable.not_not.mp fun hsome => ?_
  obtain ⟨other, hline, hother⟩ := h.lines _ hsome
  cases hline
  exact hother hnew

/-- What holds of a node holds as long as nothing that concerns it changes. -/
theorem NodeSound.of_same {later : ChannelRun σ} (h : run.NodeSound server name bus)
    (hchannel : later.channel = run.channel)
    (houtlet : server.outlet later.state (.messages name) =
      server.outlet run.state (.messages name))
    (hpublished : later.ledger.published = run.ledger.published) :
    later.NodeSound server name bus := by
  obtain ⟨hsubscribed, honChannel, waiting, hwaiting, hidle⟩ := h
  refine ⟨hsubscribed, honChannel.trans hchannel.symm, waiting, ?_, ?_⟩
  · rw [houtlet, hwaiting, hchannel]
  · rw [hpublished]
    exact hidle

section Join

/-- A node that has just joined. -/
def newcomer (run : ChannelRun σ) (node : NodeId) : RedisBus where
  node := node
  channel := run.channel
  subscription := .active

/-- A node that joins under a new name is subscribed. -/
theorem Sound.join_eq (hserver : server.Documented) (h : run.Sound server)
    (hnew : run.nodes.lookup name = none) (node : NodeId) :
    ∃ state, run.join server name node =
        { run with state, nodes := (name, run.newcomer node) :: run.nodes } ∧
      server.outlet state = Function.update (server.outlet run.state) (.messages name)
        (some { channel := Bytes.ofText run.channel }) := by
  have hconnect : Ensures (RedisBus.connect (server.respond (.messages name)) node run.channel)
      run.state fun bus state =>
        bus = run.newcomer node ∧
          server.outlet state = Function.update (server.outlet run.state) (.messages name)
            (some { channel := Bytes.ofText run.channel }) := by
    refine (hserver.subscribe _ _ _ (h.outlet_messages hnew)).bind fun reply state hreply => ?_
    obtain ⟨⟨items, rfl⟩, houtlet⟩ := hreply
    exact ensures_pure ⟨rfl, houtlet⟩
  obtain ⟨hbus, houtlet⟩ := hconnect
  refine ⟨_, ?_, houtlet⟩
  rw [join, ← hbus]
  rfl

/-- A node that joins before the first publication is owed nothing. -/
theorem Sound.join (hserver : server.Documented) {node : NodeId} (h : run.Sound server)
    (hallows : run.allows (.join name node)) :
    (run.step server (.join name node)).Sound server := by
  simp only [allows, Bool.and_eq_true] at hallows
  obtain ⟨⟨hempty, hisNone⟩, hfresh⟩ := hallows
  have hnone : run.ledger.published = [] := List.isEmpty_iff.mp hempty
  have hnew : run.nodes.lookup name = none := Option.isNone_iff_eq_none.mp hisNone
  obtain ⟨state, hjoin, houtlet⟩ := h.join_eq hserver hnew node
  have hsame : ∀ other, other ≠ name →
      server.outlet state (.messages other) = server.outlet run.state (.messages other) := by
    intro other hother
    rw [houtlet, Function.update_of_ne fun heq => hother (Line.messages.inj heq)]
  have hself : server.outlet state (.messages name) =
      some { channel := Bytes.ofText run.channel } := by rw [houtlet, Function.update_self]
  have hcases : ∀ other one,
      ((name, run.newcomer node) :: run.nodes).lookup other = some one →
        (other = name ∧ one = run.newcomer node) ∨
          (other ≠ name ∧ run.nodes.lookup other = some one) := by
    intro other one hone
    rw [lookup_entry] at hone
    exact of_set_eq_some hone
  rw [step, hjoin]
  refine ⟨?_, h.ids.of_new hcases fun other one hone => ?_, fun line hline => ?_,
    fun other one hone => ?_⟩
  · have hstations : run.stations server name = none := by rw [stations, hnew, Option.map_none]
    refine (h.tallies.join hnone hstations).congr fun other => ?_
    rw [stations, lookup_entry, Function.update_apply]
    split
    · next hother =>
      rw [hother, Option.map_some, station, PubSub.waiting, hself]
      rfl
    · next hother => exact stations_of_same (hsame other hother)
  · exact of_decide_eq_true (List.all_eq_true.mp hfresh _ (mem_of_lookup hone))
  · by_cases hname : line = .messages name
    · refine ⟨name, hname, ?_⟩
      rw [lookup_entry, if_pos rfl]
      exact Option.some_ne_none _
    · rw [houtlet, Function.update_of_ne hname] at hline
      obtain ⟨other, rfl, hother⟩ := h.lines line hline
      refine ⟨other, rfl, ?_⟩
      rw [lookup_entry, if_neg fun heq => hname (congrArg Line.messages heq)]
      exact hother
  · rcases hcases other one hone with ⟨rfl, rfl⟩ | ⟨hother, hold⟩
    · exact ⟨rfl, rfl, [], hself, fun _ => nofun⟩
    · exact (h.node other one hold).of_same rfl (hsame other hother) rfl

end Join

/-- A node after a handler has been registered on one is that one or another one as it was. -/
theorem lookup_subscribe (run : ChannelRun σ) (name other : String) (kind : EventKind)
    (handler : Handler) :
    (run.subscribe name kind handler).nodes.lookup other =
      if other = name then (run.nodes.lookup name).map fun bus => bus.subscribe kind handler
      else run.nodes.lookup other :=
  lookup_map_at run.nodes name other fun bus : RedisBus => bus.subscribe kind handler

/-- A handler that is registered before the first publication has missed nothing. -/
theorem Sound.subscribe {kind : EventKind} {handler : Handler} (h : run.Sound server)
    (hallows : run.allows (.subscribe name kind handler)) :
    (run.step server (.subscribe name kind handler)).Sound server := by
  obtain ⟨hempty, hsome⟩ := Bool.and_eq_true_iff.mp hallows
  have hnone : run.ledger.published = [] := List.isEmpty_iff.mp hempty
  obtain ⟨bus, hbus⟩ := Option.isSome_iff_exists.mp hsome
  obtain ⟨-, -, waiting, hwaiting, hidle⟩ := h.node name bus hbus
  have hcases : ∀ other one,
      (run.subscribe name kind handler).nodes.lookup other = some one →
        ∃ old, run.nodes.lookup other = some old ∧
          (one = old ∨ one = old.subscribe kind handler) := by
    intro other one hone
    rw [lookup_subscribe] at hone
    split at hone
    · next hother =>
      obtain ⟨old, hold, rfl⟩ := Option.map_eq_some_iff.mp hone
      exact ⟨old, hother ▸ hold, .inr rfl⟩
    · exact ⟨one, hone, .inl rfl⟩
  rw [step]
  refine ⟨?_, h.ids.of_same fun other one hone => ?_, fun line hline => ?_,
    fun other one hone => ?_⟩
  · -- What waits is no message, and leads to no call of the new handler either.
    have hjunk : ((station server run.state name (bus.subscribe kind handler)).pending).flatten =
        [] := by
      rw [station, PubSub.waiting, hwaiting, Option.map_some, Option.getD_some,
        List.flatten_eq_nil_iff]
      intro calls hcalls
      obtain ⟨payload, hpayload, rfl⟩ := List.mem_map.mp hcalls
      rw [RedisBus.deliver_of_no_message _ (hidle hnone payload hpayload), List.map_nil]
    have hregistered := h.tallies.register hnone (stations_of_lookup hbus) kind handler hjunk
    refine hregistered.congr fun other => ?_
    rw [stations, lookup_subscribe, Function.update_apply]
    split
    · next hother =>
      rw [hbus, Option.map_some, Option.map_some, hother]
      rfl
    · rfl
  · obtain ⟨old, hold, rfl | rfl⟩ := hcases other one hone
    · exact ⟨one, hold, rfl⟩
    · exact ⟨old, hold, rfl⟩
  · obtain ⟨other, rfl, hother⟩ := h.lines line hline
    refine ⟨other, rfl, ?_⟩
    rw [lookup_subscribe]
    split
    · rw [hbus, Option.map_some]
      exact Option.some_ne_none _
    · exact hother
  · obtain ⟨old, hold, rfl | rfl⟩ := hcases other one hone
    · obtain ⟨hsubscribed, honChannel, hfed⟩ := h.node other one hold
      exact ⟨hsubscribed, honChannel, hfed⟩
    · obtain ⟨hsubscribed, honChannel, hfed⟩ := h.node other old hold
      exact ⟨hsubscribed, honChannel, hfed⟩

section Hand

variable {payload : Bytes} {state : σ}

/-- A payload on the channel waits for every node, and will lead there to its calls. -/
theorem Sound.stations_hand (h : run.Sound server)
    (houtlet : server.outlet state = fun line =>
      (server.outlet run.state line).map (Outlet.offer (Bytes.ofText run.channel) payload))
    (other : String) :
    (run.nodes.lookup other).map (station server state other) =
      (run.nodes.lookup other).map fun bus => (station server run.state other bus).expect
        ((bus.deliver payload).map HandlerCall.target) := by
  cases hone : run.nodes.lookup other with
  | none => rfl
  | some one =>
    obtain ⟨-, -, waiting, hwaiting, -⟩ := h.node other one hone
    simp only [Option.map_some, station, Station.expect, PubSub.waiting, houtlet, hwaiting,
      Outlet.offer, if_true, Option.getD_some, List.map_append, List.map_singleton]

/-- A payload on the channel makes no difference to who is subscribed. -/
theorem Sound.lines_hand (h : run.Sound server)
    (houtlet : server.outlet state = fun line =>
      (server.outlet run.state line).map (Outlet.offer (Bytes.ofText run.channel) payload))
    (line : Line) (hline : server.outlet state line ≠ none) :
    ∃ name, line = .messages name ∧ run.nodes.lookup name ≠ none := by
  refine h.lines line fun hnone => hline ?_
  rw [houtlet]
  simp only [hnone, Option.map_none]

/-- A payload on the channel waits for a node behind those that waited. -/
theorem NodeSound.outlet_hand (houtlet : server.outlet state = fun line =>
      (server.outlet run.state line).map (Outlet.offer (Bytes.ofText run.channel) payload))
    {waiting : List Bytes}
    (hwaiting : server.outlet run.state (.messages name) =
      some ⟨Bytes.ofText run.channel, waiting⟩) :
    server.outlet state (.messages name) =
      some ⟨Bytes.ofText run.channel, waiting ++ [payload]⟩ := by
  rw [houtlet]
  simp only [hwaiting, Option.map_some, Outlet.offer, if_true]

end Hand

/-- A payload that is no message makes no difference to any node. -/
theorem Sound.intrude (hserver : server.Documented) {client : String} {payload : Bytes}
    (h : run.Sound server) (hallows : run.allows (.intrude client payload)) :
    (run.step server (.intrude client payload)).Sound server := by
  have hjunk : RedisBus.message? payload = none := Option.isNone_iff_eq_none.mp hallows
  obtain ⟨-, houtlet⟩ := hserver.publish (.commands client) (Bytes.ofText run.channel) payload
    run.state (h.outlet_commands client)
  refine ⟨?_, h.ids, h.lines_hand houtlet, fun other one hone => ?_⟩
  · refine h.tallies.intrude fun other => ?_
    refine (h.stations_hand houtlet other).trans ?_
    rw [stations, Option.map_map]
    refine congrArg (fun change => (run.nodes.lookup other).map change) (funext fun bus => ?_)
    rw [RedisBus.deliver_of_no_message bus hjunk]
    rfl
  · obtain ⟨hsubscribed, honChannel, waiting, hwaiting, hidle⟩ := h.node other one hone
    refine ⟨hsubscribed, honChannel, waiting ++ [payload],
      NodeSound.outlet_hand houtlet hwaiting, fun hnone => ?_⟩
    exact List.forall_mem_append.mpr ⟨hidle hnone, List.forall_mem_singleton.mpr hjunk⟩

/-- What a node publishes waits for every node, and will lead there to the calls that are due. -/
theorem Sound.publish (hserver : server.Documented) {event : Event} (h : run.Sound server)
    (hallows : run.allows (.publish name event)) :
    (run.step server (.publish name event)).Sound server := by
  obtain ⟨origin, horigin⟩ := Option.isSome_iff_exists.mp hallows
  obtain ⟨hsubscribed, honChannel, -⟩ := h.node name origin horigin
  have hpublish : Ensures (origin.publish (server.respond (.commands name)) event) run.state
      fun _ state => server.outlet state = fun line => (server.outlet run.state line).map
        (Outlet.offer (Bytes.ofText run.channel) (origin.payload event)) := by
    have hcommand := hserver.publish (.commands name) (Bytes.ofText origin.channel)
      (origin.payload event) run.state (h.outlet_commands name)
    rw [RedisBus.publish, hsubscribed, ← honChannel]
    exact hcommand.bind fun _ state hstate => ensures_pure hstate.2
  have houtlet := hpublish
  rw [step, ChannelRun.publish, horigin]
  have hsome : run.ledger.published ++ [(name, event)] ≠ [] :=
    List.append_ne_nil_of_right_ne_nil _ (List.cons_ne_nil _ _)
  refine ⟨?_, h.ids, h.lines_hand houtlet, fun other one hone => ?_⟩
  · refine h.tallies.publish name event fun other => ?_
    refine (h.stations_hand houtlet other).trans ?_
    rw [stations, Option.map_map]
    cases hone : run.nodes.lookup other with
    | none => rfl
    | some one =>
      -- The identifier tells the listener what the name says: whether the event is its own.
      have hown : origin.node = one.node ↔ name = other := h.ids.mark_eq_iff horigin hone
      have hhandlers := h.tallies.handlers other _ (stations_of_lookup hone)
      have hactive := (h.node other one hone).subscribed
      rw [Option.map_some, Option.map_some, RedisBus.deliver_payload hactive,
        HandlerTable.dispatch_target, ← hhandlers]
      simp only [hown]
      rfl
  · obtain ⟨hsubscribed', honChannel', waiting, hwaiting, -⟩ := h.node other one hone
    exact ⟨hsubscribed', honChannel', _, NodeSound.outlet_hand houtlet hwaiting,
      fun hnone => absurd hnone hsome⟩

/-- What the listener of a node does: it takes the oldest payload, if one waits, and makes the calls
for it. -/
theorem Sound.listen_eq (hserver : server.Documented) (h : run.Sound server)
    (hbus : run.nodes.lookup name = some bus) (verdict : Nat → Bool) :
    ∃ calls state, run.listen server name verdict =
        { run with state, ledger := run.ledger.note name calls } ∧
      calls.map HandlerCall.target = (station server run.state name bus).pending.headD [] ∧
      server.outlet state = Function.update (server.outlet run.state) (.messages name)
        (some ⟨Bytes.ofText run.channel, (server.waiting run.state (.messages name)).tail⟩) := by
  obtain ⟨-, -, waiting, hwaiting, -⟩ := h.node name bus hbus
  have hserved := hserver.receive _ _ run.state hwaiting
  obtain ⟨received, state, hreceive⟩ : ∃ received state,
      (server.receive (.messages name)).run run.state = (received, state) := ⟨_, _, rfl⟩
  rw [Ensures, hreceive] at hserved
  obtain ⟨rfl, houtlet⟩ := hserved
  refine ⟨waiting.head?.elim [] (bus.acting verdict).deliver, state, ?_, ?_, ?_⟩
  · rw [ChannelRun.listen, hbus]
    simp only [hreceive]
  · rw [station, PubSub.waiting, hwaiting, Option.map_some, Option.getD_some]
    cases waiting with
    | nil => rfl
    | cons payload rest => exact bus.deliver_acting verdict payload
  · rw [houtlet, PubSub.waiting, hwaiting]
    rfl

/-- A listener keeps the account, and leaves its node with all that waited but the oldest
payload. -/
theorem Sound.listen (hserver : server.Documented) (h : run.Sound server)
    (hbus : run.nodes.lookup name = some bus) (verdict : Nat → Bool) :
    (run.listen server name verdict).Sound server ∧
      (run.listen server name verdict).stations server name =
        some (station server run.state name bus).rest ∧
      ∃ calls, (run.listen server name verdict).ledger = run.ledger.note name calls := by
  obtain ⟨calls, state, hlisten, hcalls, houtlet⟩ := h.listen_eq hserver hbus verdict
  obtain ⟨hsubscribed, honChannel, waiting, hwaiting, hidle⟩ := h.node name bus hbus
  have hsame : ∀ other, other ≠ name →
      server.outlet state (.messages other) = server.outlet run.state (.messages other) := by
    intro other hother
    rw [houtlet, Function.update_of_ne fun heq => hother (Line.messages.inj heq)]
  have hself : server.outlet state (.messages name) =
      some ⟨Bytes.ofText run.channel, waiting.tail⟩ := by
    rw [houtlet, Function.update_self, PubSub.waiting, hwaiting]
    rfl
  have hrest : station server state name bus = (station server run.state name bus).rest := by
    rw [station, PubSub.waiting, hself, station, PubSub.waiting, hwaiting, Station.rest,
      Option.map_some, Option.map_some, Option.getD_some, Option.getD_some, List.map_tail]
  rw [hlisten]
  refine ⟨⟨?_, h.ids, fun line hline => h.lines line ?_, fun other one hone => ?_⟩, ?_, _, rfl⟩
  · refine (h.tallies.note (stations_of_lookup hbus) hcalls).congr fun other => ?_
    rw [Function.update_apply]
    split
    · next hother => rw [hother, stations, hbus, Option.map_some, hrest]
    · next hother => exact stations_of_same (hsame other hother)
  · by_cases hname : line = .messages name
    · rw [hname, hwaiting]
      exact Option.some_ne_none _
    · rwa [houtlet, Function.update_of_ne hname] at hline
  · by_cases hother : other = name
    · subst hother
      obtain rfl : bus = one := Option.some.inj (hbus.symm.trans hone)
      exact ⟨hsubscribed, honChannel, waiting.tail, hself,
        fun hnone payload hpayload => hidle hnone payload (List.mem_of_mem_tail hpayload)⟩
    · exact (h.node other one hone).of_same rfl (hsame other hother) rfl
  · rw [stations, hbus, Option.map_some, hrest]

/-- Every step that may be taken keeps the account. -/
theorem Sound.step (hserver : server.Documented) (h : run.Sound server) {step : ChannelStep}
    (hallows : run.allows step) : (run.step server step).Sound server := by
  cases step with
  | join name node => exact h.join hserver hallows
  | subscribe name kind handler => exact h.subscribe hallows
  | publish name event => exact h.publish hserver hallows
  | intrude client payload => exact h.intrude hserver hallows
  | listen name verdict =>
    cases hbus : run.nodes.lookup name with
    | none =>
      rw [ChannelRun.step, ChannelRun.listen, hbus]
      exact h
    | some bus => exact (h.listen hserver hbus verdict).1

end ChannelRun

end PresenceTracker
