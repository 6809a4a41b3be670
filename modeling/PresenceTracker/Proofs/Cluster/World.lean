import PresenceTracker.Cluster.World
import PresenceTracker.Proofs.Bus.Channel
import PresenceTracker.Proofs.Cluster.Network
import PresenceTracker.Proofs.Engine.Announcing
import PresenceTracker.Proofs.Engine.Notes

/-!
# Clusters and networks

The cluster that runs keeps tables of nodes and of caches, and one list of messages for all
listeners. A network keeps for every two nodes what is under way between them. The one is a model
of the other: what a node of the cluster works on is what the node of the network works on, but for
what has been noted, and the messages that still wait for a node are what is under way to it. Work
of a node keeps this, and so does a listener that handles one message after the other. So a
delivery to all nodes is a run of single deliveries in which nothing is lost.
-/

namespace PresenceTracker

namespace Site

/-- A node works on the terms it has worked on before. -/
structure SameTerms (site later : Site) : Prop where
  /-- The clock stands still. -/
  clock : later.clock = site.clock
  /-- The settings are the same. -/
  settings : later.settings = site.settings
  /-- The topic of the cache is the same. -/
  topic : later.topic = site.topic

namespace SameTerms

variable {site later last : Site}

/-- Where nothing was done the terms are the same. -/
theorem refl (site : Site) : site.SameTerms site := ⟨rfl, rfl, rfl⟩

/-- Terms that are kept twice are kept. -/
theorem trans (h : site.SameTerms later) (h' : later.SameTerms last) : site.SameTerms last :=
  ⟨h'.clock.trans h.clock, h'.settings.trans h.settings, h'.topic.trans h.topic⟩

/-- At a call that changes nothing the terms are the same. -/
theorem of_fades {outside : Outside} (h : site.Fades outside later) : site.SameTerms later :=
  ⟨h.clock, h.settings, h.topic⟩

end SameTerms

/-- No call changes the terms on which a node works. -/
theorem sameTerms_frame (outside : Outside) : FullFrame outside SameTerms where
  refl := .refl
  trans := .trans
  fades h _ := .of_fades h
  asks _ _ h _ := .of_fades h
  hold _ _ := ⟨rfl, rfl, rfl⟩
  drop _ _ := ⟨rfl, rfl, rfl⟩
  clear _ := ⟨rfl, rfl, rfl⟩
  tell _ _ _ _ := ⟨rfl, rfl, rfl⟩
  broadcast _ _ := ⟨rfl, rfl, rfl⟩
  release _ _ := ensures_modify (by split <;> exact ⟨rfl, rfl, rfl⟩)
  writes _ _ h _ _ := ⟨h.clock, h.settings, h.topic⟩
  slots _ _ := ⟨rfl, rfl, rfl⟩

end Site

/-- An event of another node leaves the terms as they are. -/
theorem Engine.receive_sameTerms (outside : Outside) (event : Event) (site : Site) :
    Ensures (receive outside event) site fun _ later => site.SameTerms later := by
  have hframe := (Site.sameTerms_frame outside).toFrame
  cases event with
  | updateStatus record =>
    exact (cachePut_frame hframe record site).bind fun _ _ hlater => ensures_pure hlater
  | presenceChanged presence => exact ensures_modify ⟨rfl, rfl, rfl⟩
  | invalidateCache topic key =>
    refine ensures_get_bind ?_
    split
    · cases key with
      | some user =>
        exact (cacheRemove_frame hframe user site).bind fun _ _ hlater => ensures_pure hlater
      | none => exact (cachePurge_frame hframe site).bind fun _ _ hlater => ensures_pure hlater
    · exact ensures_pure (.refl site)

namespace World

variable {world : World} {name : String} {member other : Member} {site : Site}

/-- Whether a call of a node fails depends neither on its number nor on what the cache holds. -/
theorem outside_uniform (world : World) (member : Member) : (world.outside member).Uniform where
  store _ _ _ := rfl
  cache _ _ _ := rfl
  stays _ _ := rfl
  order _ _ := rfl

/-- A node that has worked finds its site as it left it. -/
theorem site_left_self (hterms : (world.site member).SameTerms site) :
    (world.left name member site).site (memberAfter member site) = site.unnoted := by
  have hcache : (world.left name member site).caches[member.cacheKey]?.getD ∅ = site.cache := by
    simp [left]
  simp only [World.site, memberAfter, hcache, Site.unnoted]
  rw [hterms.clock, hterms.settings, hterms.topic]
  rfl

/-- A node that has worked is found under its name. -/
theorem get?_members_left (world : World) (name : String) (member : Member) (site : Site) :
    (world.left name member site).members[name]? = some (memberAfter member site) := by
  rw [left, Table.get?_insert, if_pos rfl]

/-- Another node finds its site as it was, but for the rows and for a cache that it shares. -/
theorem site_left_other :
    (world.left name member site).site other = { world.site other with
      store := site.store
      cache := if other.cacheKey = member.cacheKey then site.cache
        else (world.site other).cache } := by
  have hcache : (world.left name member site).caches[other.cacheKey]?.getD ∅ =
      if other.cacheKey = member.cacheKey then site.cache else (world.site other).cache := by
    simp only [left, Table.get?_insert, eq_comm (a := member.cacheKey)]
    split <;> rfl
  simp only [World.site, hcache]
  rfl

/-- Two pieces of work one after the other leave what both leave if they are done apart. -/
theorem left_left {first second : Site} :
    (world.left name member first).left name (memberAfter member first) second =
      world.left name member (second.noted first.notes) := by
  have htable : ∀ {α : Type} (table : Table α) (key : String) (old new : α),
      (table.insert key old).insert key new = table.insert key new := by
    intro α table key old new
    ext other : 1
    simp only [Table.get?_insert]
    split <;> rfl
  simp [left, memberAfter, htable, Site.noted, Site.notes]

/-- Work on a node gives the result and leaves the site that the action has there. -/
theorem onMember_eq {α : Type} (action : Outside → StateM Site α) :
    world.onMember name member action =
      (((action (world.outside member)).run (world.site member)).1,
        world.left name member ((action (world.outside member)).run (world.site member)).2) := rfl

/-- Of two actions of a node in sequence the second may as well begin with fresh notes. -/
theorem onMember_bind {α β : Type} (world : World) (name : String) (member : Member)
    (first : Outside → StateM Site α) (next : α → Outside → StateM Site β)
    (hterms : Ensures (first (world.outside member)) (world.site member) fun _ later =>
      (world.site member).SameTerms later)
    (hnext : ∀ value, IgnoresNotes (next value (world.outside member))) :
    world.onMember name member (fun outside => first outside >>= fun value => next value outside) =
      (world.onMember name member first).2.onMember name
        (memberAfter member ((first (world.outside member)).run (world.site member)).2)
        (next (world.onMember name member first).1) := by
  let ran := (first (world.outside member)).run (world.site member)
  have hsecond : (next ran.1 (world.outside member)).run ran.2 =
      (((next ran.1 (world.outside member)).run ran.2.unnoted).1,
        ((next ran.1 (world.outside member)).run ran.2.unnoted).2.noted ran.2.notes) := by
    conv_lhs => rw [← ran.2.noted_notes]
    exact hnext ran.1 ran.2.notes ran.2.unnoted
  have htwice : (first (world.outside member) >>= fun value => next value
      (world.outside member)).run (world.site member) =
        (next ran.1 (world.outside member)).run ran.2 := rfl
  rw [onMember_eq first, onMember_eq (next _), site_left_self hterms, onMember_eq, htwice, hsecond]
  exact Prod.ext rfl left_left.symm

/-- A listener may as well handle the first event alone. -/
theorem onMember_receive (event : Event) (rest : List Event) :
    world.onMember name member (fun outside => (event :: rest).forM (Engine.receive outside)) =
      (world.onMember name member fun outside => Engine.receive outside event).2.onMember name
        (memberAfter member
          ((Engine.receive (world.outside member) event).run (world.site member)).2)
        fun outside => rest.forM (Engine.receive outside) :=
  onMember_bind world name member (fun outside => Engine.receive outside event)
    (fun _ outside => rest.forM (Engine.receive outside))
    (Engine.receive_sameTerms (world.outside member) event (world.site member))
    fun _ => ignoresNotes_forM (Engine.receive_ignoresNotes (outside_uniform world member)) rest

section Messages

/-- What a node has sent, of some messages. -/
def sentBy (name : String) (messages : List (Option String × Event)) : List Event :=
  messages.filterMap fun message => if message.1 = some name then some message.2 else none

variable {messages : List (Option String × Event)} {event : Event}

/-- What a node has sent of messages in a row it has sent of each part. -/
theorem sentBy_append (name : String) (messages later : List (Option String × Event)) :
    sentBy name (messages ++ later) = sentBy name messages ++ sentBy name later :=
  List.filterMap_append

/-- Of what a node publishes all is sent by it. -/
theorem sentBy_published (name : String) (events : List Event) :
    sentBy name (events.map (some name, ·)) = events := by
  simp [sentBy, List.filterMap_map]

/-- Of what a node publishes nothing is sent by another one. -/
theorem sentBy_published_of_ne {other : String} (hne : other ≠ name) (events : List Event) :
    sentBy other (events.map (some name, ·)) = [] := by
  simp [sentBy, List.filterMap_map, Ne.symm hne]

/-- A message of a node is sent by it. -/
theorem sentBy_cons_self : sentBy name ((some name, event) :: messages) =
    event :: sentBy name messages := by
  simp [sentBy]

/-- A message of another node is not. -/
theorem sentBy_cons_of_ne {other : String} (hne : other ≠ name) :
    sentBy other ((some name, event) :: messages) = sentBy other messages := by
  simp [sentBy, Ne.symm hne]

/-- A listener passes over a message of its own node. -/
theorem heard_cons_self : heard name ((some name, event) :: messages) = heard name messages := by
  simp [heard]

/-- It hears a message of another node. -/
theorem heard_cons_of_ne {other : String} (hne : other ≠ name) :
    heard other ((some name, event) :: messages) = event :: heard other messages := by
  simp [heard, Ne.symm hne]

end Messages

section Listeners

variable {σ : Type} {channel : Broadcast (Option String × Event) σ}
  {waits : σ → Nat → Option (List (Option String × Event))}

/-- A node that listens handles what it hears. -/
theorem listen_eq (hmember : world.members[name]? = some member)
    (hattached : member.attached = true) :
    world.listen channel name = (world.onMember name member fun outside =>
      (world.delivered channel name).forM (Engine.receive outside)).2 := by
  rw [listen, hmember]
  exact if_pos hattached

/-- Where no more messages wait than the channel holds a listener hears all of them. -/
theorem delivered_eq (hchannel : channel.Documented waits)
    (hfits : world.messages.length ≤ world.hubBuffer) :
    world.delivered channel name = heard name world.messages := by
  have hholds := hchannel.holds (max world.hubBuffer 1)
  have hkept : world.messages.length - channel.capacity (channel.build (max world.hubBuffer 1)) =
      0 := by omega
  rw [delivered, hchannel.received_relay, hkept, List.drop_zero]

/-- A listener publishes nothing. -/
theorem listen_keeps (channel : Broadcast (Option String × Event) σ) (world : World)
    (name : String) :
    (world.listen channel name).messages = world.messages ∧
      (world.listen channel name).hubBuffer = world.hubBuffer := by
  rw [listen]
  split
  · next member _ =>
    split
    · have hsilent : Ensures ((world.delivered channel name).forM
          (Engine.receive (world.outside member))) (world.site member) fun _ later =>
            later.published = [] :=
        ensures_forM (fun _ later => later.published = [])
          (fun event _ site hsite => (Engine.receive_shows _ event site).mono
            fun _ _ hlater => hlater.2.1.trans hsite) rfl
      refine ⟨?_, rfl⟩
      rw [onMember_eq, left, hsilent, List.map_nil, List.append_nil]
    · exact ⟨rfl, rfl⟩
  · exact ⟨rfl, rfl⟩

end Listeners

end World

namespace Network

variable {ι : Type}

/-- A node of a network works on what a node of a cluster works on, but for what has been noted. -/
structure StandsFor (outside : ι → Outside) (network : Network ι String) (worker : ι)
    (world : World) (member : Member) : Prop where
  /-- The node uses the same cache. -/
  home : network.home worker = member.cacheKey
  /-- The node listens to the others. -/
  attached : member.attached = true
  /-- Its calls fail in the same way. -/
  outside : world.outside member = outside worker
  /-- It works on the same, whatever has been noted. -/
  site : ∃ notes, network.site worker = (world.site member).noted notes

/-- As a node of a network begins with nothing published, none of that has been noted. -/
theorem StandsFor.exists_notes {outside : ι → Outside} {network : Network ι String} {worker : ι}
    {world : World} {member : Member} (h : network.StandsFor outside worker world member) :
    ∃ notes : Notes, notes.published = [] ∧
      network.site worker = (world.site member).noted notes := by
  obtain ⟨notes, hsite⟩ := h.site
  have hpublished : [] = notes.published ++ [] := congrArg Site.published hsite
  exact ⟨notes, by rw [← List.append_nil notes.published, ← hpublished], hsite⟩

/-- A network is a model of a cluster with nodes of certain names, where certain messages still
wait for each of them. -/
structure Models [DecidableEq ι] (outside : ι → Outside) (name : ι → String)
    (network : Network ι String) (world : World)
    (pending : ι → List (Option String × Event)) : Prop where
  /-- No two nodes share a name. -/
  named : Function.Injective name
  /-- There is no further node in the cluster. -/
  known : ∀ key ∈ world.members, ∃ worker, name worker = key
  /-- Every node works on what its counterpart works on. -/
  member : ∀ worker, ∃ member, world.members[name worker]? = some member ∧
    network.StandsFor outside worker world member
  /-- What is under way to a node are the messages of the others that wait for it. -/
  flight : ∀ sender receiver, network.flight sender receiver =
    if sender = receiver then [] else World.sentBy (name sender) (pending receiver)
  /-- Every message that waits was sent by one of the nodes. -/
  senders : ∀ receiver, ∀ message ∈ pending receiver, ∃ sender, message.1 = some (name sender)

variable [DecidableEq ι] {outside : ι → Outside} {name : ι → String} {network : Network ι String}
  {world : World} {pending : ι → List (Option String × Event)} {worker : ι} {member : Member}

namespace Models

/-- The node of a name works on what the one of the network works on. -/
theorem standsFor_of_mem (h : network.Models outside name world pending)
    (hmember : world.members[name worker]? = some member) :
    network.StandsFor outside worker world member := by
  obtain ⟨found, hfound, hstands⟩ := h.member worker
  rw [hmember] at hfound
  cases hfound
  exact hstands

/-- A model stays one if the cluster changes nothing that a node works on. -/
theorem of_same (h : network.Models outside name world pending) {later : World}
    (hmembers : later.members = world.members)
    (houtside : ∀ member, later.outside member = world.outside member)
    (hsite : ∀ member, later.site member = world.site member) :
    network.Models outside name later pending where
  named := h.named
  known key hmem := h.known key (hmembers ▸ hmem)
  member worker := by
    obtain ⟨member, hmember, hstands⟩ := h.member worker
    refine ⟨member, hmembers ▸ hmember, hstands.home, hstands.attached, ?_, ?_⟩
    · rw [houtside, hstands.outside]
    · rw [hsite]
      exact hstands.site
  flight := h.flight
  senders := h.senders

/-- What a node publishes is under way to all others, and waits for them. -/
theorem flight_put (h : network.Models outside name world pending) (site : Site)
    (sender receiver : ι) :
    (network.put worker site).flight sender receiver =
      if sender = receiver then [] else World.sentBy (name sender)
        (pending receiver ++ site.published.map (some (name worker), ·)) := by
  by_cases hsame : sender = receiver
  · rw [if_pos hsame, ← hsame]
    have hnone : network.flight sender sender = [] := by rw [h.flight, if_pos rfl]
    by_cases hsender : sender = worker
    · rw [hsender, flight_put_self, ← hsender, hnone]
    · rw [flight_put_other hsender, hnone]
  · have hbefore := h.flight sender receiver
    rw [if_neg hsame] at hbefore
    rw [if_neg hsame, World.sentBy_append]
    by_cases hsender : sender = worker
    · subst hsender
      rw [flight_put_of_ne (Ne.symm hsame), hbefore, World.sentBy_published]
    · have hname : name sender ≠ name worker := fun heq => hsender (h.named heq)
      rw [flight_put_other hsender, hbefore, World.sentBy_published_of_ne hname, List.append_nil]

/-- A node that works in both leaves a model again, if it leaves alike what the nodes work on. What
was published waits for all of them. -/
theorem put (h : network.Models outside name world pending)
    (hmember : world.members[name worker]? = some member) {later : World} {after : Member}
    {site : Site} (hmembers : later.members = world.members.insert (name worker) after)
    (hkey : after.cacheKey = member.cacheKey) (hattached : after.attached = member.attached)
    (houtside : ∀ other, later.outside other = world.outside other)
    (hfaults : after.cacheFaults = member.cacheFaults)
    (hself : ∃ notes, { site with published := [] } = (later.site after).noted notes)
    (hother : ∀ other, later.site other = { world.site other with
      store := site.store
      cache := if other.cacheKey = member.cacheKey then site.cache
        else (world.site other).cache }) :
    (network.put worker site).Models outside name later
      (fun receiver => pending receiver ++ site.published.map (some (name worker), ·)) where
  named := h.named
  known key hmem := by
    rw [hmembers] at hmem
    rcases Std.ExtTreeMap.mem_insert.mp hmem with hsame | hbefore
    · exact ⟨worker, Std.LawfulEqCmp.eq_of_compare hsame⟩
    · exact h.known key hbefore
  member other := by
    have hstands := h.standsFor_of_mem hmember
    by_cases hsame : other = worker
    · subst hsame
      have hafter : world.outside after = world.outside member := by simp [World.outside, hfaults]
      refine ⟨after, by simp [hmembers], hstands.home.trans hkey.symm,
        hattached.trans hstands.attached, ?_, ?_⟩
      · rw [houtside, hafter, hstands.outside]
      · rw [site_put_self]
        exact hself
    · obtain ⟨kept, hkept, hbefore⟩ := h.member other
      have hname : name worker ≠ name other := fun heq => hsame (h.named heq).symm
      refine ⟨kept, ?_, hbefore.home, hbefore.attached, ?_, ?_⟩
      · rw [hmembers, Table.get?_insert, if_neg hname, hkept]
      · rw [houtside, hbefore.outside]
      · obtain ⟨notes, hsite⟩ := hbefore.site
        refine ⟨notes, ?_⟩
        rw [hother, site_put_other hsame, hsite, hbefore.home, hstands.home]
        rfl
  flight := h.flight_put site
  senders receiver message hmem := by
    rcases List.mem_append.mp hmem with hbefore | hnew
    · exact h.senders receiver message hbefore
    · obtain ⟨event, -, rfl⟩ := List.mem_map.mp hnew
      exact ⟨worker, rfl⟩

/-- Work on the same terms leaves the cluster with what it leaves the network with. -/
theorem left (h : network.Models outside name world pending)
    (hmember : world.members[name worker]? = some member) {site : Site}
    (hterms : (world.site member).SameTerms site) {notes : Notes} (hnotes : notes.published = []) :
    (network.put worker (site.noted notes)).Models outside name
      (world.left (name worker) member site)
      (fun receiver => pending receiver ++ site.published.map (some (name worker), ·)) := by
  have hpublished : (site.noted notes).published = site.published := by simp [Site.noted, hnotes]
  rw [← hpublished]
  refine h.put hmember rfl rfl rfl (fun _ => rfl) rfl ?_ fun _ => World.site_left_other
  refine ⟨{ (site.noted notes).notes with published := [] }, ?_⟩
  rw [World.site_left_self hterms]
  simp [Site.noted, Site.unnoted, Site.notes]

/-- An action that reads no notes gives the same on the node of the network, and leaves the nodes
with what the network has. -/
theorem act (h : network.Models outside name world pending)
    (hmember : world.members[name worker]? = some member) {α : Type}
    (action : Outside → StateM Site α) (hignores : IgnoresNotes (action (outside worker)))
    (hterms : Ensures (action (outside worker)) (world.site member) fun _ later =>
      (world.site member).SameTerms later) :
    ((action (outside worker)).run (network.site worker)).1 =
        (world.onMember (name worker) member action).1 ∧
      (network.put worker ((action (outside worker)).run (network.site worker)).2).Models outside
        name (world.onMember (name worker) member action).2 fun receiver => pending receiver ++
          ((action (outside worker)).run (world.site member)).2.published.map
            (some (name worker), ·) := by
  have hstands := h.standsFor_of_mem hmember
  obtain ⟨notes, hnotes, hsite⟩ := hstands.exists_notes
  rw [hsite, hignores notes (world.site member), World.onMember_eq, hstands.outside]
  exact ⟨rfl, h.left hmember hterms hnotes⟩

/-- A node that does nothing leaves the nodes with what the network has. -/
theorem idle (h : network.Models outside name world pending)
    (hmember : world.members[name worker]? = some member) :
    network.Models outside name (world.left (name worker) member (world.site member)) pending := by
  refine h.of_same ?_ (fun _ => rfl) fun other => ?_
  · have hsame : World.memberAfter member (world.site member) = member := by
      simp [World.memberAfter, World.site]
    ext other : 1
    rw [World.left, hsame, Table.get?_insert]
    split
    · next heq => rw [← heq, hmember]
    · rfl
  · rw [World.site_left_other]
    simp only [World.site]
    split
    · next hkey => rw [hkey]
    · rfl

/-- Once a node has taken its next message, the others that wait were sent by nodes. -/
theorem senders_of_taken (h : network.Models outside name world pending)
    {first : Option String × Event} {rest : List (Option String × Event)}
    (hpending : pending worker = first :: rest) (receiver : ι) (message : Option String × Event)
    (hmem : message ∈ Function.update pending worker rest receiver) :
    ∃ sender, message.1 = some (name sender) := by
  refine h.senders receiver message ?_
  by_cases hsame : receiver = worker
  · subst hsame
    rw [Function.update_self] at hmem
    exact hpending ▸ List.mem_cons_of_mem _ hmem
  · rwa [Function.update_of_ne hsame] at hmem

/-- A message that a node has sent itself need not wait for it. -/
theorem passOver (h : network.Models outside name world pending) {event : Event}
    {rest : List (Option String × Event)}
    (hpending : pending worker = (some (name worker), event) :: rest) :
    network.Models outside name world (Function.update pending worker rest) where
  named := h.named
  known := h.known
  member := h.member
  flight sender receiver := by
    rw [h.flight]
    by_cases hreceiver : receiver = worker
    · subst hreceiver
      split
      · rfl
      · next hne =>
        rw [Function.update_self, hpending,
          World.sentBy_cons_of_ne fun heq => hne (h.named heq)]
    · rw [Function.update_of_ne hreceiver]
  senders := h.senders_of_taken hpending

/-- Once the next event from a sender is no longer under way, the message does not wait any more. -/
theorem take (h : network.Models outside name world pending) {sender receiver : ι}
    (hne : sender ≠ receiver) {event : Event} {rest : List (Option String × Event)}
    (hpending : pending receiver = (some (name sender), event) :: rest) :
    (network.withFlight sender receiver (World.sentBy (name sender) rest)).Models outside name world
      (Function.update pending receiver rest) where
  named := h.named
  known := h.known
  member worker := by
    obtain ⟨member, hmember, hstands⟩ := h.member worker
    exact ⟨member, hmember, hstands.home, hstands.attached, hstands.outside, hstands.site⟩
  flight first second := by
    rw [flight_withFlight, h.flight, Function.update_apply]
    by_cases hsecond : second = receiver
    · subst hsecond
      by_cases hfirst : first = sender
      · subst hfirst
        rw [if_pos ⟨rfl, rfl⟩, if_neg hne, if_pos rfl]
      · have hname : name first ≠ name sender := fun heq => hfirst (h.named heq)
        rw [if_neg fun heq => hfirst heq.1, if_pos rfl, hpending, World.sentBy_cons_of_ne hname]
    · rw [if_neg fun heq => hsecond heq.2, if_neg hsecond]
  senders := h.senders_of_taken hpending

/-- The next message that waits for a node is delivered to the node of the network. -/
theorem deliver (h : network.Models outside name world pending) {sender receiver : ι}
    (hmember : world.members[name receiver]? = some member) (hne : sender ≠ receiver)
    {event : Event} {rest : List (Option String × Event)}
    (hpending : pending receiver = (some (name sender), event) :: rest) :
    (network.deliver outside sender receiver 0).Models outside name
      (world.onMember (name receiver) member fun outside => Engine.receive outside event).2
      (Function.update pending receiver rest) := by
  have hflight : network.flight sender receiver = event :: World.sentBy (name sender) rest := by
    rw [h.flight, if_neg hne, hpending, World.sentBy_cons_self]
  have huniform : (outside receiver).Uniform :=
    (h.standsFor_of_mem hmember).outside ▸ World.outside_uniform world member
  have hact := ((h.take hne hpending).act hmember (fun outside => Engine.receive outside event)
    (Engine.receive_ignoresNotes huniform event)
    (Engine.receive_sameTerms (outside receiver) event (world.site member))).2
  have hsilent : ((Engine.receive (outside receiver) event).run (world.site member)).2.published =
      [] := (Engine.receive_shows (outside receiver) event (world.site member)).2.1
  simp only [hsilent, List.map_nil, List.append_nil] at hact
  rw [Network.deliver, hflight]
  exact hact

/-- All messages that wait for a node are delivered one after the other. -/
theorem hear {allows : Network ι String → NetworkStep ι → Prop}
    (hnext : ∀ network sender receiver, allows network (.deliver sender receiver 0))
    {receiver : ι} {messages : List (Option String × Event)}
    (h : network.Models outside name world pending)
    (hmember : world.members[name receiver]? = some member)
    (hpending : pending receiver = messages) :
    ∃ later, Reaches outside allows network later ∧
      later.Models outside name
        (world.onMember (name receiver) member fun outside =>
          (World.heard (name receiver) messages).forM (Engine.receive outside)).2
        (Function.update pending receiver []) := by
  induction messages generalizing network world member pending with
  | nil =>
    have hnone : Function.update pending receiver [] = pending := by
      rw [← hpending, Function.update_eq_self]
    rw [hnone]
    exact ⟨network, .start, h.idle hmember⟩
  | cons message rest ih =>
    obtain ⟨origin, event⟩ := message
    obtain ⟨sender, hsender⟩ := h.senders receiver (origin, event) (hpending ▸ List.mem_cons_self)
    obtain rfl : origin = some (name sender) := hsender
    by_cases hsame : sender = receiver
    · subst hsame
      obtain ⟨later, hreaches, hmodels⟩ := ih (h.passOver hpending) hmember
        (Function.update_self ..)
      rw [Function.update_idem] at hmodels
      rw [World.heard_cons_self]
      exact ⟨later, hreaches, hmodels⟩
    · have hname : name receiver ≠ name sender := fun heq => hsame (h.named heq).symm
      have hdelivered := h.deliver hmember hsame hpending
      obtain ⟨later, hreaches, hmodels⟩ := ih hdelivered
        (World.get?_members_left ..) (Function.update_self ..)
      rw [Function.update_idem] at hmodels
      have hstep : Reaches outside allows network (network.deliver outside sender receiver 0) :=
        .step (.deliver sender receiver 0) .start (hnext network sender receiver)
      rw [World.heard_cons_of_ne hname, World.onMember_receive]
      exact ⟨later, hstep.trans hreaches, hmodels⟩

section Delivery

variable {allows : Network ι String → NetworkStep ι → Prop} {σ : Type}
  {channel : Broadcast (Option String × Event) σ}
  {waits : σ → Nat → Option (List (Option String × Event))}

/-- The listener of a node takes what waits for it. -/
theorem listen (hnext : ∀ network sender receiver, allows network (.deliver sender receiver 0))
    (hchannel : channel.Documented waits) (hfits : world.messages.length ≤ world.hubBuffer)
    (h : network.Models outside name world pending) (hpending : pending worker = world.messages) :
    ∃ later, Reaches outside allows network later ∧
      later.Models outside name (world.listen channel (name worker))
        (Function.update pending worker []) := by
  obtain ⟨member, hmember, hstands⟩ := h.member worker
  rw [World.listen_eq hmember hstands.attached, World.delivered_eq hchannel hfits]
  exact h.hear hnext hmember hpending

/-- The listeners of nodes take one after the other what waits for them. -/
theorem listenAll (hnext : ∀ network sender receiver, allows network (.deliver sender receiver 0))
    (hchannel : channel.Documented waits) {keys : List String} (hkeys : keys.Nodup)
    (hnodes : ∀ key ∈ keys, ∃ worker, name worker = key)
    (hfits : world.messages.length ≤ world.hubBuffer)
    (h : network.Models outside name world fun worker =>
      if name worker ∈ keys then world.messages else []) :
    ∃ later, Reaches outside allows network later ∧
      later.Models outside name (keys.foldl (World.listen channel) world) fun _ => [] := by
  induction keys generalizing network world with
  | nil => exact ⟨network, .start, by simpa using h⟩
  | cons key rest ih =>
    obtain ⟨worker, rfl⟩ := hnodes key List.mem_cons_self
    obtain ⟨hfresh, hrest⟩ := List.nodup_cons.mp hkeys
    obtain ⟨between, hreaches, hbetween⟩ := h.listen hnext hchannel hfits
      (if_pos List.mem_cons_self)
    have hpending : Function.update (fun worker' => if name worker' ∈ name worker :: rest then
        world.messages else []) worker [] =
          fun worker' => if name worker' ∈ rest then world.messages else [] := by
      funext other
      rw [Function.update_apply]
      by_cases hother : other = worker
      · rw [if_pos hother, hother, if_neg hfresh]
      · have hname : name other ≠ name worker := fun heq => hother (h.named heq)
        rw [if_neg hother]
        simp only [List.mem_cons, hname, false_or]
    obtain ⟨hmessages, hbuffer⟩ := World.listen_keeps channel world (name worker)
    rw [hpending, ← hmessages] at hbetween
    obtain ⟨later, hreaches', hlater⟩ := ih hrest
      (fun key hmem => hnodes key (List.mem_cons_of_mem _ hmem))
      (by rw [hmessages, hbuffer]; exact hfits) hbetween
    exact ⟨later, hreaches.trans hreaches', hlater⟩

/-- When all listeners have run nothing is under way. -/
theorem settle (hnext : ∀ network sender receiver, allows network (.deliver sender receiver 0))
    (hchannel : channel.Documented waits) (hfits : world.messages.length ≤ world.hubBuffer)
    (h : network.Models outside name world fun _ => world.messages) :
    ∃ later, Reaches outside allows network later ∧
      later.Models outside name (world.settle channel) fun _ => [] := by
  have hall : (fun worker => if name worker ∈ world.members.keys then world.messages else []) =
      fun _ => world.messages := by
    funext worker
    obtain ⟨member, hmember, -⟩ := h.member worker
    exact if_pos (Std.ExtTreeMap.mem_keys.mpr (Table.mem_of_get?_eq_some hmember))
  obtain ⟨later, hreaches, hlater⟩ := listenAll hnext hchannel Std.ExtTreeMap.nodup_keys
    (fun key hmem => h.known key (Std.ExtTreeMap.mem_keys.mp hmem)) hfits (hall ▸ h)
  exact ⟨later, hreaches, hlater.of_same rfl (fun _ => rfl) fun _ => rfl⟩

end Delivery

end Models

/-- A network that is a model of a cluster in which nothing waits is settled. -/
theorem Models.settled (h : network.Models outside name world fun _ => []) : network.Settled := by
  intro sender receiver
  rw [h.flight]
  split <;> rfl

end Network

end PresenceTracker
