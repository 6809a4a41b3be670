import PresenceTracker.Proofs.Cluster.Network
import PresenceTracker.Proofs.Engine.Handling

/-!
# Networks with one leader

While one node makes all the changes, another node may be behind: its cache may show what
was true a while ago. But what it will show once it has handled everything that is under
way from the leader is backed by the store. That is kept by every step in which the leader
works, in which another node reads or purges, and in which the next event is delivered. So
whenever nothing is under way every node is in step with the store.
-/

namespace PresenceTracker.Network

open Site

section Invariant

variable {ι κ : Type}

theorem Local.topic_site {network : Network ι κ} (h : network.Local) (node : ι) :
    (network.site node).topic = .status := h.topic node

/-- A node with a cache of its own that works handles every event. -/
theorem Local.receive_handled {network : Network ι κ} {outside : ι → Outside}
    (hworks : ∀ node, (outside node).CacheWorks) (h : network.Local) (receiver : ι)
    (event : Event) :
    Ensures (Engine.receive (outside receiver) event) (network.site receiver) fun _ later =>
      (network.site receiver).Handled event later := by
  refine Engine.receive_handled (hworks receiver) ?_ event
  rw [h.topic_site]
  rfl

/-- In a network before its first step every node is in step. -/
theorem Fresh.inStep {network : Network ι κ} (h : network.Fresh) (node : ι) :
    (network.site node).InStep :=
  inStep_of_empty h.keyed (h.caches (network.home node))

/-- One node makes all the changes, and the others follow. -/
structure Led (leader : ι) (network : Network ι κ) : Prop extends network.Local where
  /-- The leader is in step with the store. -/
  leads : (network.site leader).InStep
  /-- What a node will know once it has handled what is under way from the leader is
  backed. -/
  follows : ∀ node, node ≠ leader → ∀ user, network.store.Backs user
    (Event.leavesAll .status user ((network.site node).cached? user) (network.flight leader node))
  /-- From other nodes than the leader only purges are under way. -/
  purges : ∀ sender, sender ≠ leader → ∀ receiver, ∀ event ∈ network.flight sender receiver,
    event = .invalidateCache .status none
  /-- Nothing is under way from a node to itself. -/
  own : ∀ node, network.flight node node = []

variable {network : Network ι κ} {leader sender receiver : ι} {event : Event} {rest : List Event}
  {later : Site}

/-- Of a settled network any node may be the leader if every node is in step. -/
theorem Local.led (h : network.Local) (hsettled : network.Settled)
    (hinStep : ∀ node, (network.site node).InStep) (leader : ι) : network.Led leader where
  toLocal := h
  leads := hinStep leader
  follows node _ user := by
    rw [hsettled]
    exact (hinStep node).backed user
  purges sender _ receiver event hmem := by
    rw [hsettled] at hmem
    cases hmem
  own node := hsettled node node

namespace Led

/-- When nothing is under way every node is in step. -/
theorem inStep (h : network.Led leader) (hsettled : network.Settled) (node : ι) :
    (network.site node).InStep := by
  by_cases heq : node = leader
  · exact heq ▸ h.leads
  · refine ⟨h.leads.keyed, fun user => ?_⟩
    have hfollows := h.follows node heq user
    rw [hsettled] at hfollows
    exact hfollows

/-- When nothing is under way every cached record agrees with the user's row. -/
theorem agrees (h : network.Led leader) (hsettled : network.Settled) : network.Agrees :=
  fun node user => (h.inStep hsettled node).backed user

/-- What is under way to a node comes from another one. -/
theorem receiver_ne (h : network.Led leader)
    (hflight : network.flight sender receiver = event :: rest) : receiver ≠ sender := by
  intro heq
  subst heq
  rw [h.own] at hflight
  cases hflight

/-- From another node than the leader the next event is a purge, which leaves nothing. -/
theorem cached_purged (h : network.Led leader) (hsender : sender ≠ leader)
    (hflight : network.flight sender receiver = event :: rest)
    (hhandled : (network.site receiver).Handled event later) (user : String) :
    later.cached? user = none := by
  have hpurge : event = .invalidateCache .status none :=
    h.purges sender hsender receiver event (by rw [hflight]; exact List.mem_cons_self)
  cases hcached : later.cached? user with
  | none => rfl
  | some record =>
    have hleft := hhandled.cached user record hcached
    rw [hpurge, h.topic_site, Event.leaves, if_pos ⟨rfl, .inl rfl⟩] at hleft
    cases hleft

/-- What a node knows after the next event of the leader leads to the same in the end. -/
theorem follows_next (h : network.Led leader) (hreceiver : receiver ≠ leader)
    (hflight : network.flight leader receiver = event :: rest)
    (hhandled : (network.site receiver).Handled event later) (user : String) :
    network.store.Backs user (Event.leavesAll .status user (later.cached? user) rest) := by
  have hfollows := h.follows receiver hreceiver user
  rw [hflight, Event.leavesAll_cons] at hfollows
  refine hfollows.leavesAll_of_refill fun record hcached => .inl ?_
  rw [← h.topic_site receiver]
  exact hhandled.cached user record hcached

end Led

end Invariant

variable {ι κ : Type} [DecidableEq ι] [DecidableEq κ] {network : Network ι κ}
  {leader worker sender receiver : ι} {event : Event} {rest : List Event} {later : Site}

/-- Work that keeps the topic keeps every node's cache its own. -/
theorem Local.put (h : network.Local) (htopic : later.topic = .status) :
    (network.put worker later).Local where
  homes := h.homes
  topic node := by
    by_cases heq : node = worker
    · subst heq
      simpa [Network.put] using htopic
    · simpa [Network.put, Function.update_of_ne heq] using h.topic node

/-- A node with a cache of its own finds it untouched after the work of another one. -/
theorem Local.site_put (h : network.Local) {node : ι} (hne : node ≠ worker) :
    (network.put worker later).site node = (network.site node).withStore later.store :=
  site_put_of_ne fun heq => hne (h.homes heq)

/-- A delivery changes no rows. -/
theorem Local.store_deliver {outside : ι → Outside} (hworks : ∀ node, (outside node).CacheWorks)
    (h : network.Local) (sender receiver : ι) (place : Nat) :
    (network.deliver outside sender receiver place).store = network.store := by
  unfold Network.deliver
  split
  · next event hevent => exact (h.receive_handled hworks receiver event).store
  · rfl

/-- The delivery of the next event leaves the rest under way. -/
theorem Local.flight_deliver {outside : ι → Outside} (hworks : ∀ node, (outside node).CacheWorks)
    (h : network.Local) (hflight : network.flight sender receiver = event :: rest)
    (first second : ι) :
    (network.deliver outside sender receiver 0).flight first second =
      if first = sender ∧ second = receiver then rest else network.flight first second := by
  unfold Network.deliver
  rw [hflight]
  exact flight_take (h.receive_handled hworks receiver event).published first second

namespace Led

/-- The leader may do whatever leaves it coherent: what it publishes brings the others
along. -/
theorem put_leader (h : network.Led leader)
    (hlater : (network.site leader).Coherent [] [] later) :
    (network.put leader later).Led leader where
  toLocal := h.toLocal.put (hlater.topic.trans (h.topic leader))
  leads := by
    rw [site_put_self]
    exact ⟨hlater.keyed, hlater.inStep.backed⟩
  follows node hne user := by
    have htopic := h.topic_site leader
    obtain ⟨events, hpublished, htold⟩ := hlater.told (by rw [htopic]; rfl)
    have hevents : later.published = events := hpublished
    rw [flight_put_of_ne hne, h.toLocal.site_put hne, Event.leavesAll_append, hevents, ← htopic]
    exact htold user List.not_mem_nil _ (htopic ▸ h.follows node hne user)
  purges sender hne receiver event hmem := by
    rw [flight_put_other hne] at hmem
    exact h.purges sender hne receiver event hmem
  own node := by
    by_cases heq : node = leader
    · rw [heq, flight_put_self, h.own]
    · rw [flight_put_other heq, h.own]

/-- A node that only observes keeps following. -/
theorem put_observer (h : network.Led leader) (hne : worker ≠ leader)
    (hlater : (network.site worker).Observes later) : (network.put worker later).Led leader where
  toLocal := h.toLocal.put (hlater.topic.trans (h.topic worker))
  leads := by
    rw [h.toLocal.site_put hne.symm, hlater.store]
    exact h.leads
  follows node hfollower user := by
    rw [flight_put_other hne.symm]
    show later.store.Backs _ _
    rw [hlater.store]
    by_cases heq : node = worker
    · subst heq
      rw [site_put_self]
      exact (h.follows node hfollower user).leavesAll_of_refill (hlater.cached user)
    · rw [h.toLocal.site_put heq]
      exact h.follows node hfollower user
  purges sender hsender receiver event hmem := by
    by_cases heq : sender = worker ∧ receiver ≠ worker
    · obtain ⟨rfl, hreceiver⟩ := heq
      rw [flight_put_of_ne hreceiver] at hmem
      obtain ⟨events, hpublished, hpurges⟩ := hlater.published
      have hevents : later.published = events := hpublished
      rcases List.mem_append.mp hmem with hbefore | hnew
      · exact h.purges sender hsender receiver event hbefore
      · rw [hpurges event (hevents ▸ hnew), h.topic_site]
    · have hflight : (network.put worker later).flight sender receiver =
          network.flight sender receiver := if_neg heq
      exact h.purges sender hsender receiver event (hflight ▸ hmem)
  own node := by
    by_cases heq : node = worker
    · rw [heq, flight_put_self, h.own]
    · rw [flight_put_other heq, h.own]

/-- An incident at any node leaves the others following. -/
theorem incident (h : network.Led leader) (outside : ι → Outside) (worker : ι)
    (incident : Incident) : (network.step outside (.incident worker incident)).Led leader := by
  have hrefills := incident.befall_refills (network.site worker)
  by_cases heq : worker = leader
  · subst heq
    exact h.put_leader (h.leads.coherent.refills hrefills)
  · exact h.put_observer heq hrefills.observes

/-- A node that takes an event leaves what the other nodes work on. -/
theorem site_take (h : network.Led leader) (hhandled : (network.site receiver).Handled event later)
    {node : ι} (hnode : node ≠ receiver) :
    ((network.withFlight sender receiver rest).put receiver later).site node =
      network.site node := by
  have hlocal : (network.withFlight sender receiver rest).Local := ⟨h.homes, h.topic⟩
  rw [hlocal.site_put hnode, hhandled.store]
  rfl

/-- A leader that takes an event from another node takes a purge, and stays in step. -/
theorem take_leads (h : network.Led leader)
    (hflight : network.flight sender receiver = event :: rest)
    (hhandled : (network.site receiver).Handled event later) :
    (((network.withFlight sender receiver rest).put receiver later).site leader).InStep := by
  by_cases hleader : leader = receiver
  · subst hleader
    have hpurged := h.cached_purged (h.receiver_ne hflight).symm hflight hhandled
    rw [site_put_self]
    refine ⟨hhandled.store ▸ h.leads.keyed, fun user => ?_⟩
    show later.store.Backs user (later.cached? user)
    rw [hpurged user]
    exact Store.backs_none _ _
  · rw [h.site_take hhandled hleader]
    exact h.leads

/-- A node that takes an event of the leader will know the same in the end, and one that takes
a purge will know no more than it would have. -/
theorem take_follows (h : network.Led leader)
    (hflight : network.flight sender receiver = event :: rest)
    (hhandled : (network.site receiver).Handled event later) {node : ι} (hnode : node ≠ leader)
    (user : String) :
    network.store.Backs user (Event.leavesAll .status user
      ((((network.withFlight sender receiver rest).put receiver later).site node).cached? user)
      (((network.withFlight sender receiver rest).put receiver later).flight leader node)) := by
  have hpublished : later.published = [] := hhandled.published
  rw [flight_take hpublished]
  by_cases hreceiver : node = receiver
  · subst hreceiver
    rw [site_put_self]
    show network.store.Backs user (Event.leavesAll .status user (later.cached? user) _)
    by_cases hsender : leader = sender
    · subst hsender
      rw [if_pos ⟨rfl, rfl⟩]
      exact h.follows_next hnode hflight hhandled user
    · have hpurged := h.cached_purged (Ne.symm hsender) hflight hhandled user
      rw [if_neg fun heq => hsender heq.1, hpurged]
      exact (h.follows node hnode user).leavesAll_of_refill fun _ => nofun
  · rw [if_neg fun heq => hreceiver heq.2, h.site_take hhandled hreceiver]
    exact h.follows node hnode user

/-- A node that takes the next event from a sender leaves the others following. -/
theorem take (h : network.Led leader)
    (hflight : network.flight sender receiver = event :: rest)
    (hhandled : (network.site receiver).Handled event later) :
    ((network.withFlight sender receiver rest).put receiver later).Led leader where
  toLocal := by
    have hlocal : (network.withFlight sender receiver rest).Local := ⟨h.homes, h.topic⟩
    exact hlocal.put (hhandled.topic.trans (h.topic receiver))
  leads := h.take_leads hflight hhandled
  follows node hnode user := by
    have hstore : ((network.withFlight sender receiver rest).put receiver later).store =
        network.store := hhandled.store
    rw [hstore]
    exact h.take_follows hflight hhandled hnode user
  purges first hfirst second other hmem := by
    rw [flight_take hhandled.published] at hmem
    split at hmem
    · next heq =>
      have hbefore : other ∈ network.flight first second := by
        rw [heq.1, heq.2, hflight]
        exact List.mem_cons_of_mem event hmem
      exact h.purges first hfirst second other hbefore
    · exact h.purges first hfirst second other hmem
  own node := by
    have hne := h.receiver_ne hflight
    rw [flight_take hhandled.published, if_neg fun heq => hne (heq.2.symm.trans heq.1), h.own]

/-- The delivery of the next event leaves the others following. -/
theorem deliver {outside : ι → Outside} (hworks : ∀ node, (outside node).CacheWorks)
    (h : network.Led leader) (sender receiver : ι) :
    (network.deliver outside sender receiver 0).Led leader := by
  unfold Network.deliver
  cases hflight : network.flight sender receiver with
  | nil => exact h
  | cons event rest =>
    exact h.take hflight (h.receive_handled hworks receiver event)

end Led

end PresenceTracker.Network
