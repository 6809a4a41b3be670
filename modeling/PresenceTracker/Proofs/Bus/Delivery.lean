import Mathlib.Logic.Function.Basic
import PresenceTracker.Bus.Handlers

/-!
# What handlers get to see

A transport owes every node the events that the other nodes publish. What is due for one event
is a call of each handler that was registered on the node for its kind, in the order of
registration, and what is due for many events is what is due for one after the other. All this is
read off a ledger, in which every registration, every publication and every call of a handler is
put down as it is made, and which no step of a transport looks at. The calls that were made and
those to which the messages under way will lead add up to what is due; a transport that keeps this
account has served a node once nothing is under way to it. Which handlers fail is left open: a
verdict decides it for each registration, anew for every message that is received.
-/

namespace PresenceTracker

/-- The handler and the event of a call, whatever came of it. -/
def HandlerCall.target (call : HandlerCall) : String × Event := (call.handler, call.event)

/-- A registration of a handler. -/
structure Registration where
  /-- The node. -/
  node : String
  /-- The kind of the events. -/
  kind : EventKind
  /-- The name of the handler. -/
  handler : String
  deriving DecidableEq

/-- What has been asked of the nodes of a transport, and what their listeners have done. -/
structure Ledger where
  /-- The handlers that were registered, in order. -/
  registered : List Registration := []
  /-- The events that were published, in order, each with the name of the node it came from. -/
  published : List (String × Event) := []
  /-- The calls that the listener of each node has made, in order. -/
  made : String → List HandlerCall := fun _ => []

/-- What is due for events where handlers have been registered, each for a kind and with a name:
for one event after the other, a call of each handler of its kind in the order of registration. -/
def due (registrations : List (EventKind × String)) (events : List Event) :
    List (String × Event) :=
  events.flatMap fun event =>
    (registrations.filter fun entry => entry.1 = event.kind).map fun entry => (entry.2, event)

/-- Calls that serve events: exactly those that are due are made, in their order. -/
structure Serves (registrations : List (EventKind × String)) (events : List Event)
    (calls : List HandlerCall) : Prop where
  /-- For one event after the other, the handlers of its kind are called in the order of their
  registration. -/
  inOrder : calls.map HandlerCall.target = due registrations events
  /-- A handler with a name of its own is called with exactly the events of its kind, with each
  of them once and in their order. -/
  each : ∀ kind name,
    (registrations.filter fun entry => entry.2 = name) = [(kind, name)] →
      (calls.filter fun call => call.handler = name).map HandlerCall.event =
        events.filter fun event => event.kind = kind

namespace Ledger

/-- A handler is registered on a node. -/
def register (ledger : Ledger) (node : String) (kind : EventKind) (handler : String) : Ledger :=
  { ledger with registered := ledger.registered ++ [⟨node, kind, handler⟩] }

/-- A node publishes an event. -/
def publish (ledger : Ledger) (origin : String) (event : Event) : Ledger :=
  { ledger with published := ledger.published ++ [(origin, event)] }

/-- The listener of a node makes calls. -/
def note (ledger : Ledger) (self : String) (calls : List HandlerCall) : Ledger :=
  { ledger with made := Function.update ledger.made self (ledger.made self ++ calls) }

/-- The handlers that were registered on a node: their kinds and names, in order. -/
def registeredOn (ledger : Ledger) (self : String) : List (EventKind × String) :=
  (ledger.registered.filter fun entry => entry.node = self).map fun entry =>
    (entry.kind, entry.handler)

/-- The events that the other nodes published, in order. -/
def fromOthers (ledger : Ledger) (self : String) : List Event :=
  (ledger.published.filter fun entry => entry.1 ≠ self).map Prod.snd

/-- What is due to a node. -/
def dueTo (ledger : Ledger) (self : String) : List (String × Event) :=
  due (ledger.registeredOn self) (ledger.fromOthers self)

end Ledger

section Due

variable {registrations : List (EventKind × String)}

theorem due_append (registrations : List (EventKind × String)) (first second : List Event) :
    due registrations (first ++ second) = due registrations first ++ due registrations second :=
  List.flatMap_append

/-- What is due to a handler with a name of its own are the events of its kind. -/
theorem due_filter {kind : EventKind} {name : String}
    (hsole : (registrations.filter fun entry => entry.2 = name) = [(kind, name)])
    (events : List Event) :
    ((due registrations events).filter fun target => target.1 = name).map Prod.snd =
      events.filter fun event => event.kind = kind := by
  have hone : ∀ event,
      ((due registrations [event]).filter fun target => target.1 = name).map Prod.snd =
        if event.kind = kind then [event] else [] := by
    intro event
    have hswap : (registrations.filter fun entry => entry.1 = event.kind).filter
        (fun entry => entry.2 = name) =
          [(kind, name)].filter fun entry => entry.1 = event.kind := by
      rw [← hsole, List.filter_filter, List.filter_filter]
      exact List.filter_congr fun _ _ => Bool.and_comm _ _
    have hbehind : (fun target : String × Event => decide (target.1 = name)) ∘
        (fun entry : EventKind × String => (entry.2, event)) =
          fun entry => decide (entry.2 = name) := rfl
    rw [due, List.flatMap_singleton, List.filter_map, hbehind, hswap]
    by_cases hkind : event.kind = kind
    · simp [hkind]
    · simp [hkind, Ne.symm hkind]
  induction events with
  | nil => rfl
  | cons event rest ih =>
    have hsplit : due registrations (event :: rest) =
        due registrations [event] ++ due registrations rest := due_append registrations [event] rest
    rw [hsplit, List.filter_append, List.map_append, ih, hone, List.filter_cons]
    by_cases hkind : event.kind = kind <;> simp [hkind]

/-- Calls that are due for events serve them. -/
theorem serves_of_due {events : List Event} {calls : List HandlerCall}
    (h : calls.map HandlerCall.target = due registrations events) :
    Serves registrations events calls where
  inOrder := h
  each := by
    intro kind name hsole
    have hdue := due_filter hsole events
    rw [← h, List.filter_map, List.map_map] at hdue
    exact hdue

end Due

namespace HandlerTable

/-- The handlers as they behave on one occasion: the verdict on the place of a registration
decides whether it reports a failure. -/
def acting (table : HandlerTable) (verdict : Nat → Bool) : HandlerTable :=
  table.mapIdx fun place entry => (entry.1, { entry.2 with fails := fun _ => verdict place })

/-- What a table holds, whoever fails: the kinds and the names of the handlers, in order. -/
def registrations (table : HandlerTable) : List (EventKind × String) :=
  table.map fun entry => (entry.1, entry.2.name)

/-- Who fails on an occasion makes no difference to what a table holds. -/
theorem registrations_acting (table : HandlerTable) (verdict : Nat → Bool) :
    (table.acting verdict).registrations = table.registrations := by
  induction table generalizing verdict with
  | nil => rfl
  | cons entry rest ih =>
    rw [acting, List.mapIdx_cons, registrations, List.map_cons]
    exact congrArg (List.cons _) (ih fun place => verdict (place + 1))

/-- A handler that is registered stands behind those that the table holds. -/
theorem registrations_register (table : HandlerTable) (kind : EventKind) (handler : Handler) :
    (table.register kind handler).registrations = table.registrations ++ [(kind, handler.name)] :=
  List.map_append

section Dispatch

variable {ι : Type} [DecidableEq ι] (table : HandlerTable) (self origin : ι) (event : Event)

/-- An event leads to the calls that are due for it, and to none at the node it came from. -/
theorem dispatch_target :
    (table.dispatch self origin event).map HandlerCall.target =
      due table.registrations (if origin = self then [] else [event]) := by
  rw [dispatch]
  split
  · rfl
  · rw [due, List.flatMap_singleton, List.map_map, ofKind, registrations, List.filter_map,
      List.map_map, List.map_map]
    rfl

/-- Whoever fails on an occasion, the same calls are made. -/
theorem dispatch_acting (verdict : Nat → Bool) :
    ((table.acting verdict).dispatch self origin event).map HandlerCall.target =
      (table.dispatch self origin event).map HandlerCall.target := by
  rw [dispatch_target, dispatch_target, registrations_acting]

end Dispatch

end HandlerTable

/-- A node as far as its calls are concerned. -/
structure Station where
  /-- The handlers. -/
  handlers : HandlerTable := []
  /-- The calls to which each message that waits will lead, for the oldest message first. -/
  pending : List (List (String × Event)) := []

namespace Station

/-- One more message waits. -/
def expect (station : Station) (calls : List (String × Event)) : Station :=
  { station with pending := station.pending ++ [calls] }

/-- The oldest message has been taken, if one waits. -/
def rest (station : Station) : Station := { station with pending := station.pending.tail }

end Station

/-- What is found after something has been put under a name is that or what was found before. -/
theorem of_set_eq_some {α : Type} {name other : String} {new value : α} {found : Option α}
    (h : (if other = name then some new else found) = some value) :
    (other = name ∧ value = new) ∨ (other ≠ name ∧ found = some value) := by
  split at h
  · next hother => exact .inl ⟨hother, (Option.some.inj h).symm⟩
  · next hother => exact .inr ⟨hother, h⟩

namespace Ledger

/-- Before the first publication nothing is due. -/
theorem dueTo_eq_nil (ledger : Ledger) (hnone : ledger.published = []) (self : String) :
    ledger.dueTo self = [] := by
  rw [dueTo, fromOthers, hnone]
  rfl

/-- One more handler is registered on a node, and on no other one. -/
theorem registeredOn_register (ledger : Ledger) (self other : String) (kind : EventKind)
    (handler : String) :
    (ledger.register self kind handler).registeredOn other =
      ledger.registeredOn other ++ if self = other then [(kind, handler)] else [] := by
  rw [registeredOn, Ledger.register, List.filter_append, List.map_append, registeredOn]
  by_cases hother : self = other <;> simp [hother]

/-- What one listener does makes no difference to the others. -/
theorem made_note_of_ne (ledger : Ledger) {self other : String} (hother : other ≠ self)
    (calls : List HandlerCall) : (ledger.note self calls).made other = ledger.made other :=
  Function.update_of_ne hother ..

/-- The account of all nodes is in order. -/
structure Tallies (ledger : Ledger) (stations : String → Option Station) : Prop where
  /-- Every node has the handlers that were registered on it. -/
  handlers : ∀ self station, stations self = some station →
    station.handlers.registrations = ledger.registeredOn self
  /-- Handlers were registered on nodes only. -/
  known : ∀ self, stations self = none → ledger.registeredOn self = []
  /-- At every node the calls made and those to come are the ones due. -/
  account : ∀ self station, stations self = some station →
    (ledger.made self).map HandlerCall.target ++ station.pending.flatten = ledger.dueTo self
  /-- Before the first publication no handler was called. -/
  unmade : ledger.published = [] → ∀ self, ledger.made self = []

namespace Tallies

variable {ledger : Ledger} {stations : String → Option Station} {self other : String}
variable {station one : Station}

/-- A node after one has become another one is that one or was there before. -/
theorem of_update (h : Function.update stations self (some station) other = some one) :
    (other = self ∧ one = station) ∨ (other ≠ self ∧ stations other = some one) := by
  rw [Function.update_apply] at h
  exact of_set_eq_some h

/-- Where there is no node after one has become another one, there was none before. -/
theorem of_update_none (h : Function.update stations self (some station) other = none) :
    other ≠ self ∧ stations other = none := by
  by_cases hother : other = self
  · rw [hother, Function.update_self] at h
    cases h
  · rw [Function.update_of_ne hother] at h
    exact ⟨hother, h⟩

theorem congr {later : String → Option Station} (h : ledger.Tallies stations)
    (hsame : ∀ self, later self = stations self) : ledger.Tallies later := funext hsame ▸ h

/-- At the beginning nobody is owed anything. -/
theorem opened : Tallies {} fun _ => none := ⟨nofun, fun _ _ => rfl, nofun, fun _ _ => rfl⟩

/-- Before the first publication nothing is to come. -/
theorem idle (h : ledger.Tallies stations) (hnone : ledger.published = [])
    (hstation : stations self = some station) : station.pending.flatten = [] := by
  have haccount := h.account self station hstation
  rw [ledger.dueTo_eq_nil hnone] at haccount
  exact (List.append_eq_nil_iff.mp haccount).2

/-- A node that joins before the first publication is owed nothing. -/
theorem join (h : ledger.Tallies stations) (hnone : ledger.published = [])
    (hnew : stations self = none) :
    ledger.Tallies (Function.update stations self (some {})) where
  handlers := by
    intro other one hone
    rcases of_update hone with ⟨rfl, rfl⟩ | ⟨-, hold⟩
    · exact (h.known other hnew).symm
    · exact h.handlers other one hold
  known := fun other hother => h.known other (of_update_none hother).2
  account := by
    intro other one hone
    rcases of_update hone with ⟨rfl, rfl⟩ | ⟨-, hold⟩
    · rw [h.unmade hnone other, ledger.dueTo_eq_nil hnone]
      rfl
    · exact h.account other one hold
  unmade := h.unmade

/-- A handler that is registered before the first publication has missed nothing. -/
theorem register (h : ledger.Tallies stations) (hnone : ledger.published = [])
    (hstation : stations self = some station) (kind : EventKind) (handler : Handler)
    {pending : List (List (String × Event))} (hpending : pending.flatten = []) :
    (ledger.register self kind handler.name).Tallies
      (Function.update stations self
        (some ⟨station.handlers.register kind handler, pending⟩)) where
  handlers := by
    intro other one hone
    rw [registeredOn_register]
    rcases of_update hone with ⟨rfl, rfl⟩ | ⟨hother, hold⟩
    · rw [HandlerTable.registrations_register, h.handlers other station hstation, if_pos rfl]
    · rw [h.handlers other one hold, if_neg (Ne.symm hother), List.append_nil]
  known := by
    intro other hother
    obtain ⟨hne, hold⟩ := of_update_none hother
    rw [registeredOn_register, h.known other hold, if_neg (Ne.symm hne), List.append_nil]
  account := by
    intro other one hone
    have hidle : one.pending.flatten = [] := by
      rcases of_update hone with ⟨-, rfl⟩ | ⟨-, hold⟩
      · exact hpending
      · exact h.idle hnone hold
    have hmade : (ledger.register self kind handler.name).made other = [] := h.unmade hnone other
    have hdue : (ledger.register self kind handler.name).dueTo other = [] :=
      (ledger.register self kind handler.name).dueTo_eq_nil hnone other
    rw [hdue, hidle, hmade]
    rfl
  unmade := h.unmade

/-- What is published is owed to every other node. -/
theorem publish (h : ledger.Tallies stations) (origin : String) (event : Event)
    {later : String → Option Station}
    (hlater : ∀ self, later self = (stations self).map fun station => station.expect
      (due (ledger.registeredOn self) (if origin = self then [] else [event]))) :
    (ledger.publish origin event).Tallies later := by
  have hdue : ∀ self, (ledger.publish origin event).dueTo self = ledger.dueTo self ++
      due (ledger.registeredOn self) (if origin = self then [] else [event]) := by
    intro self
    have hothers : (ledger.publish origin event).fromOthers self =
        ledger.fromOthers self ++ if origin = self then [] else [event] := by
      rw [fromOthers, Ledger.publish, List.filter_append, List.map_append, fromOthers]
      by_cases horigin : origin = self <;> simp [horigin]
    rw [dueTo, hothers, due_append]
    rfl
  have hsome : ledger.published ++ [(origin, event)] ≠ [] :=
    List.append_ne_nil_of_right_ne_nil _ (List.cons_ne_nil _ _)
  refine ⟨fun self station hstation => ?_, fun self hself => ?_, fun self station hstation => ?_,
    fun hnone => absurd hnone hsome⟩
  · rw [hlater] at hstation
    obtain ⟨old, hold, rfl⟩ := Option.map_eq_some_iff.mp hstation
    exact h.handlers self old hold
  · rw [hlater] at hself
    exact h.known self (Option.map_eq_none_iff.mp hself)
  · rw [hlater] at hstation
    obtain ⟨old, hold, rfl⟩ := Option.map_eq_some_iff.mp hstation
    rw [hdue, ← h.account self old hold, List.append_assoc]
    refine congrArg (List.append _) ?_
    rw [Station.expect, List.flatten_append, List.flatten_cons, List.flatten_nil, List.append_nil]

/-- What is no message leads to no call. -/
theorem intrude (h : ledger.Tallies stations) {later : String → Option Station}
    (hlater : ∀ self, later self = (stations self).map fun station => station.expect []) :
    ledger.Tallies later := by
  refine ⟨fun self station hstation => ?_, fun self hself => ?_, fun self station hstation => ?_,
    h.unmade⟩
  · rw [hlater] at hstation
    obtain ⟨old, hold, rfl⟩ := Option.map_eq_some_iff.mp hstation
    exact h.handlers self old hold
  · rw [hlater] at hself
    exact h.known self (Option.map_eq_none_iff.mp hself)
  · rw [hlater] at hstation
    obtain ⟨old, hold, rfl⟩ := Option.map_eq_some_iff.mp hstation
    rw [← h.account self old hold, Station.expect, List.flatten_append, List.flatten_cons,
      List.flatten_nil, List.append_nil, List.append_nil]

/-- The calls for a message that a node takes are those that were to come. -/
theorem note (h : ledger.Tallies stations) (hstation : stations self = some station)
    {calls : List HandlerCall} (hcalls : calls.map HandlerCall.target = station.pending.headD []) :
    (ledger.note self calls).Tallies (Function.update stations self (some station.rest)) := by
  have hmade : (ledger.note self calls).made self = ledger.made self ++ calls :=
    Function.update_self ..
  have hpending : station.pending.flatten =
      station.pending.headD [] ++ station.pending.tail.flatten := by
    cases station.pending with
    | nil => rfl
    | cons first rest => rfl
  refine ⟨fun other one hone => ?_, fun other hother => h.known other (of_update_none hother).2,
    fun other one hone => ?_, fun hnone other => ?_⟩
  · rcases of_update hone with ⟨rfl, rfl⟩ | ⟨-, hold⟩
    · exact h.handlers other station hstation
    · exact h.handlers other one hold
  · rcases of_update hone with ⟨rfl, rfl⟩ | ⟨hother, hold⟩
    · have haccount := h.account other station hstation
      rw [hmade, List.map_append, hcalls, List.append_assoc, Station.rest, ← hpending]
      exact haccount
    · rw [ledger.made_note_of_ne hother]
      exact h.account other one hold
  · by_cases hother : other = self
    · have hidle := h.idle hnone hstation
      rw [hpending, List.append_eq_nil_iff] at hidle
      rw [hidle.1, List.map_eq_nil_iff] at hcalls
      rw [hother, hmade, h.unmade hnone self, hcalls]
      rfl
    · rw [ledger.made_note_of_ne hother]
      exact h.unmade hnone other

/-- A node for which nothing waits has been served. -/
theorem serves (h : ledger.Tallies stations) (hstation : stations self = some station)
    (hnone : station.pending = []) :
    Serves (ledger.registeredOn self) (ledger.fromOthers self) (ledger.made self) := by
  have haccount := h.account self station hstation
  rw [hnone, List.flatten_nil, List.append_nil] at haccount
  exact serves_of_due haccount

end Tallies

end Ledger

section Entries

variable {α : Type} (entries : List (String × α)) (name other : String)

/-- The first entry is found under its own name. -/
theorem lookup_entry (entry : String × α) :
    (entry :: entries).lookup name =
      if name = entry.1 then some entry.2 else entries.lookup name := by
  rw [List.lookup_cons]
  by_cases hname : name = entry.1
  · simp [hname]
  · simp [hname, beq_false_of_ne hname]

variable {entries name} in
/-- What is found under a name is an entry. -/
theorem mem_of_lookup {value : α} (h : entries.lookup name = some value) :
    (name, value) ∈ entries := by
  obtain ⟨before, behind, rfl, -⟩ := List.lookup_eq_some_iff.mp h
  exact List.mem_append_right before List.mem_cons_self

/-- An entry is found after what stands under one name has been changed. -/
theorem lookup_map_at (change : α → α) :
    (entries.map fun entry => if entry.1 = name then (name, change entry.2) else entry).lookup
        other =
      if other = name then (entries.lookup name).map change else entries.lookup other := by
  induction entries with
  | nil => simp
  | cons entry rest ih =>
    rw [List.map_cons, lookup_entry, lookup_entry, lookup_entry, ih]
    by_cases hname : entry.1 = name
    · by_cases hother : other = name <;> simp [hname, hother]
    · by_cases hother : other = name
      · simp [hname, hother, Ne.symm hname]
      · simp [hname, hother]

variable {entries name} in
/-- A new entry at the end is found under its own name. -/
theorem lookup_concat (h : entries.lookup name = none) (value : α) :
    (entries ++ [(name, value)]).lookup other =
      if other = name then some value else entries.lookup other := by
  rw [List.lookup_append, lookup_entry, List.lookup_nil]
  by_cases hother : other = name
  · rw [if_pos hother, if_pos hother, hother, h, Option.none_or]
  · rw [if_neg hother, if_neg hother, Option.or_none]

/-- The parties under different names have different marks. -/
def Apart {κ : Type} (entries : List (String × α)) (mark : α → κ) : Prop :=
  ∀ first second one other, entries.lookup first = some one → entries.lookup second = some other →
    mark one = mark other → first = second

/-- Parties that keep their marks have different marks afterwards. -/
theorem Apart.of_same {κ : Type} {mark : α → κ} {entries changed : List (String × α)}
    (h : Apart entries mark)
    (hsame : ∀ name value, changed.lookup name = some value →
      ∃ old, entries.lookup name = some old ∧ mark value = mark old) : Apart changed mark := by
  intro first second one other hfirst hsecond hmark
  obtain ⟨oldOne, holdOne, hone⟩ := hsame first one hfirst
  obtain ⟨oldOther, holdOther, hother⟩ := hsame second other hsecond
  exact h first second oldOne oldOther holdOne holdOther (hone.symm.trans (hmark.trans hother))

/-- A new party with a mark that no other one has can be told apart from them. -/
theorem Apart.of_new {κ : Type} {mark : α → κ} {entries changed : List (String × α)}
    {name : String} {new : α} (h : Apart entries mark)
    (hnew : ∀ other value, changed.lookup other = some value →
      (other = name ∧ value = new) ∨ (other ≠ name ∧ entries.lookup other = some value))
    (hfresh : ∀ other value, entries.lookup other = some value → mark value ≠ mark new) :
    Apart changed mark := by
  intro first second one other hfirst hsecond hmark
  rcases hnew first one hfirst with ⟨rfl, rfl⟩ | ⟨-, holdFirst⟩ <;>
    rcases hnew second other hsecond with ⟨rfl, rfl⟩ | ⟨-, holdSecond⟩
  · rfl
  · exact absurd hmark.symm (hfresh second other holdSecond)
  · exact absurd hmark (hfresh first one holdFirst)
  · exact h first second one other holdFirst holdSecond hmark

/-- Of two parties, the marks are the same exactly if the names are. -/
theorem Apart.mark_eq_iff {κ : Type} {mark : α → κ} {entries : List (String × α)}
    (h : Apart entries mark) {first second : String} {one other : α}
    (hfirst : entries.lookup first = some one) (hsecond : entries.lookup second = some other) :
    mark one = mark other ↔ first = second := by
  constructor
  · exact h first second one other hfirst hsecond
  · rintro rfl
    exact congrArg mark (Option.some.inj (hfirst.symm.trans hsecond))

end Entries

section Runs

variable {σ α : Type} {allows : σ → α → Bool} {step : σ → α → σ} {start state : σ}

/-- The states that are reached by steps that are allowed. -/
inductive Reached (allows : σ → α → Bool) (step : σ → α → σ) (start : σ) : σ → Prop where
  /-- No step was taken. -/
  | start : Reached allows step start start
  /-- A step was taken from a state that was reached. -/
  | step {state : σ} (action : α) (h : Reached allows step start state)
      (hallows : allows state action) : Reached allows step start (step state action)

/-- Whether each of the steps taken one after the other is allowed. -/
def obeys (allows : σ → α → Bool) (step : σ → α → σ) : σ → List α → Bool
  | _, [] => true
  | state, action :: rest => allows state action && obeys allows step (step state action) rest

/-- What every allowed step keeps holds of every state that is reached. -/
theorem Reached.keeps (h : Reached allows step start state) (inv : σ → Prop) (hstart : inv start)
    (hstep : ∀ state action, allows state action → inv state → inv (step state action)) :
    inv state := by
  induction h with
  | start => exact hstart
  | step action _ hallows ih => exact hstep _ action hallows ih

/-- Allowed steps taken one after the other reach a state. -/
theorem Reached.foldl (h : Reached allows step start state) {actions : List α}
    (hobeys : obeys allows step state actions) :
    Reached allows step start (actions.foldl step state) := by
  induction actions generalizing state with
  | nil => exact h
  | cons action rest ih =>
    rw [obeys, Bool.and_eq_true] at hobeys
    exact ih (.step action h hobeys.1) hobeys.2

end Runs

end PresenceTracker
