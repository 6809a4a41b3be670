import Mathlib.Logic.Function.Basic
import PresenceTracker.Proofs.Engine.Run

/-!
# Networks of nodes

Nodes that share a store and tell each other about what they do. What a node publishes is
under way to every other node until it is delivered there. A step of a network is an
operation on a node, an incident at a node, or something that becomes of one event under
way: it is delivered, lost or duplicated. Which steps may be taken when is a discipline,
and the networks that a discipline reaches are what can be shown safe.
-/

namespace PresenceTracker

/-- Nodes of type `ι` that share a store and use caches of type `κ`, and what is under way
between them. -/
structure Network (ι κ : Type) where
  /-- Which cache each node uses. -/
  home : ι → κ
  /-- The rows of the store. -/
  store : Store := ∅
  /-- The frames of each cache. -/
  caches : κ → Table Bytes := fun _ => ∅
  /-- What each node keeps to itself. -/
  node : ι → Site
  /-- The events under way from a node to another one, in the order of publication. -/
  flight : ι → ι → List Event := fun _ _ => []

/-- A step of a network. -/
inductive NetworkStep (ι : Type) where
  /-- A node runs an operation. -/
  | operate (worker : ι) (operation : Operation)
  /-- Something happens to a node between operations. -/
  | incident (worker : ι) (incident : Incident)
  /-- The receiver handles the event at a place among those under way from the sender. -/
  | deliver (sender receiver : ι) (place : Nat)
  /-- The event at a place among those under way is lost. -/
  | lose (sender receiver : ι) (place : Nat)
  /-- The event at a place among those under way is sent once more. -/
  | duplicate (sender receiver : ι) (place : Nat)

namespace Network

section Parts

variable {ι κ : Type}

/-- What a node works on: the rows and its cache, with nothing published yet. -/
def site (network : Network ι κ) (worker : ι) : Site :=
  { network.node worker with
    store := network.store
    cache := network.caches (network.home worker)
    published := [] }

/-- Nothing is under way. -/
def Settled (network : Network ι κ) : Prop := ∀ sender receiver, network.flight sender receiver = []

/-- Every cached record agrees with the user's row. -/
def Agrees (network : Network ι κ) : Prop :=
  ∀ node user record, (network.site node).cached? user = some record →
    ∃ row, network.store[user]? = some row ∧ record.AgreesWith row

/-- Every user with a row has an identifier that passes the check, as the store demands of
every record that is written to it. -/
def Accepted (network : Network ι κ) : Prop :=
  ∀ (user : String) (row : Record), network.store[user]? = some row → Record.checkUser user = .ok ()

/-- Every node has a cache of its own and tells the others about it. -/
structure Local (network : Network ι κ) : Prop where
  /-- No two nodes use the same cache. -/
  homes : Function.Injective network.home
  /-- Every node has the topic of node-local statuses. -/
  topic : ∀ worker, (network.node worker).topic = .status

/-- A network before its first step: the caches are empty and nothing is under way. -/
structure Fresh (network : Network ι κ) : Prop where
  /-- Every row stands under its user. -/
  keyed : network.store.Keyed
  /-- The caches are empty. -/
  caches : ∀ home, network.caches home = ∅
  /-- Nothing is under way. -/
  settled : network.Settled

end Parts

section Flights

variable {ι κ : Type} [DecidableEq ι] {network : Network ι κ}

/-- The network with other events under way from one node to another. -/
def withFlight (network : Network ι κ) (sender receiver : ι) (events : List Event) :
    Network ι κ :=
  { network with
    flight := Function.update network.flight sender
      (Function.update (network.flight sender) receiver events) }

/-- What is under way is what was put there, and between other nodes what was before. -/
theorem flight_withFlight (sender receiver first second : ι) (events : List Event) :
    (network.withFlight sender receiver events).flight first second =
      if first = sender ∧ second = receiver then events else network.flight first second := by
  by_cases hsender : first = sender
  · subst hsender
    by_cases hreceiver : second = receiver <;> simp [withFlight, hreceiver]
  · simp [withFlight, hsender]

end Flights

variable {ι κ : Type} [DecidableEq ι] [DecidableEq κ]

/-- The network after a node has worked and left `site`: what it published is under way to
every other node. -/
def put (network : Network ι κ) (worker : ι) (site : Site) : Network ι κ :=
  { network with
    store := site.store
    caches := Function.update network.caches (network.home worker) site.cache
    node := Function.update network.node worker site
    flight := fun sender receiver =>
      if sender = worker ∧ receiver ≠ worker then network.flight sender receiver ++ site.published
      else network.flight sender receiver }

/-- Runs an operation on a node. -/
def operate (outside : ι → Outside) (network : Network ι κ) (worker : ι) (operation : Operation) :
    Except Failure Answer × Network ι κ :=
  let (result, site) := (operation.run (outside worker)).run (network.site worker)
  (result, network.put worker site)

/-- Delivers the event at a place among those under way. -/
def deliver (outside : ι → Outside) (network : Network ι κ) (sender receiver : ι) (place : Nat) :
    Network ι κ :=
  match (network.flight sender receiver)[place]? with
  | some event =>
    let kept := network.withFlight sender receiver
      ((network.flight sender receiver).eraseIdx place)
    kept.put receiver ((Engine.receive (outside receiver) event).run (kept.site receiver)).2
  | none => network

/-- The network after a step. -/
def step (outside : ι → Outside) (network : Network ι κ) : NetworkStep ι → Network ι κ
  | .operate worker operation => (network.operate outside worker operation).2
  | .incident worker incident => network.put worker (incident.befall (network.site worker))
  | .deliver sender receiver place => network.deliver outside sender receiver place
  | .lose sender receiver place =>
    network.withFlight sender receiver ((network.flight sender receiver).eraseIdx place)
  | .duplicate sender receiver place =>
    network.withFlight sender receiver
      (network.flight sender receiver ++ (network.flight sender receiver)[place]?.toList)

/-- The networks that are reached by steps that a discipline allows. -/
inductive Reaches (outside : ι → Outside) (allows : Network ι κ → NetworkStep ι → Prop)
    (start : Network ι κ) : Network ι κ → Prop where
  /-- No step was taken. -/
  | start : Reaches outside allows start start
  /-- A step was taken from a network that was reached. -/
  | step {network : Network ι κ} (step : NetworkStep ι) (h : Reaches outside allows start network)
      (hallows : allows network step) : Reaches outside allows start (network.step outside step)

/-- What every allowed step keeps holds of every network that is reached. -/
theorem Reaches.keeps {outside : ι → Outside} {allows : Network ι κ → NetworkStep ι → Prop}
    {start network : Network ι κ} (h : Reaches outside allows start network)
    (inv : Network ι κ → Prop) (hstart : inv start)
    (hstep : ∀ network step, allows network step → inv network → inv (network.step outside step)) :
    inv network := by
  induction h with
  | start => exact hstart
  | step step _ hallows ih => exact hstep _ step hallows ih

/-- What is reached from a network that was reached was reached too. -/
theorem Reaches.trans {outside : ι → Outside} {allows : Network ι κ → NetworkStep ι → Prop}
    {start between network : Network ι κ} (h : Reaches outside allows start between)
    (h' : Reaches outside allows between network) : Reaches outside allows start network := by
  induction h' with
  | start => exact h
  | step step _ hallows ih => exact .step step ih hallows

/-- Steps taken one after the other obey a discipline. -/
def Obeys (outside : ι → Outside) (allows : Network ι κ → NetworkStep ι → Prop) :
    Network ι κ → List (NetworkStep ι) → Prop
  | _, [] => True
  | network, step :: rest =>
    allows network step ∧ Obeys outside allows (network.step outside step) rest

/-- Steps that obey a discipline lead to a network that it reaches. -/
theorem Reaches.foldl {outside : ι → Outside} {allows : Network ι κ → NetworkStep ι → Prop}
    {start network : Network ι κ} (h : Reaches outside allows start network)
    {steps : List (NetworkStep ι)} (hobeys : Obeys outside allows network steps) :
    Reaches outside allows start (steps.foldl (Network.step outside) network) := by
  induction steps generalizing network with
  | nil => exact h
  | cons step rest ih => exact ih (.step step h hobeys.1) hobeys.2

variable {network : Network ι κ} {worker other : ι} {site : Site}

/-- A node that has worked finds its site as it left it. -/
theorem site_put_self : (network.put worker site).site worker = { site with published := [] } := by
  simp [Network.site, put]

/-- A node with another cache finds its site as it was, but for the rows. -/
theorem site_put_of_ne (hhome : network.home other ≠ network.home worker) :
    (network.put worker site).site other = (network.site other).withStore site.store := by
  have hne : other ≠ worker := fun heq => hhome (congrArg network.home heq)
  simp [Network.site, put, Site.withStore, Function.update_of_ne hhome, Function.update_of_ne hne]

/-- Any other node finds its site as it was, but for the rows and for a cache that it shares. -/
theorem site_put_other (hne : other ≠ worker) :
    (network.put worker site).site other = { network.site other with
      store := site.store
      cache := if network.home other = network.home worker then site.cache
        else (network.site other).cache } := by
  simp only [Network.site, put, Function.update_of_ne hne, Function.update_apply]

/-- What a node caches after the work of a node is what that one left, if they share a cache. -/
theorem cached?_put (user : String) :
    ((network.put worker site).site other).cached? user =
      if network.home other = network.home worker then site.cached? user
      else (network.site other).cached? user := by
  simp only [Site.cached?, Network.site, put, Function.update_apply]
  split <;> rfl

/-- What a node publishes is under way to every other node. -/
theorem flight_put_of_ne (hne : other ≠ worker) :
    (network.put worker site).flight worker other = network.flight worker other ++ site.published :=
  if_pos ⟨rfl, hne⟩

/-- Work of another node adds nothing to what a node has under way. -/
theorem flight_put_other (hne : other ≠ worker) (receiver : ι) :
    (network.put worker site).flight other receiver = network.flight other receiver :=
  if_neg fun h => hne h.1

/-- Nothing comes under way from a node to itself. -/
theorem flight_put_self :
    (network.put worker site).flight worker worker = network.flight worker worker :=
  if_neg fun h => h.2 rfl

/-- Work that publishes nothing adds nothing to what is under way. -/
theorem flight_put_of_nil (hpublished : site.published = []) (sender receiver : ι) :
    (network.put worker site).flight sender receiver = network.flight sender receiver := by
  simp only [put]
  split
  · rw [hpublished, List.append_nil]
  · rfl

/-- A receiver that takes the next event and publishes nothing leaves the rest under way. -/
theorem flight_take {sender receiver : ι} {rest : List Event} (hpublished : site.published = [])
    (first second : ι) :
    ((network.withFlight sender receiver rest).put receiver site).flight first second =
      if first = sender ∧ second = receiver then rest else network.flight first second := by
  rw [flight_put_of_nil hpublished, flight_withFlight]

/-- Two nodes with a cache each, and no rows yet. -/
def pair : Network Bool Bool where
  home := id
  node _ := { clock := 5000 }

theorem pair_local : pair.Local := ⟨Function.injective_id, fun _ => rfl⟩

theorem pair_accepted : pair.Accepted := by
  intro user row hrow
  simp [pair] at hrow

theorem pair_fresh : pair.Fresh := ⟨Store.keyed_empty, fun _ => rfl, fun _ _ => rfl⟩

end Network

end PresenceTracker
