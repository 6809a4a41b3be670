import PresenceTracker.Proofs.Cluster.Lockstep
import PresenceTracker.Proofs.Engine.Announcing
import PresenceTracker.Proofs.Engine.Sticky

/-!
# What the clients of all nodes see

When an operation begins only after everything that the one before it published has been
handled, the clients of all nodes see the same events in the same order: those that the
operations announced. As long as no user is removed, two events about a user that follow
each other always look different, and the last one looks like the user's current record.
The nodes may have caches of their own or share one.
-/

namespace PresenceTracker

/-- Where a node is in step with the store the current record of a user looks like the row. -/
theorem Site.InStep.look_current {site : Site} (h : site.InStep) (user : String) :
    ((site.current? user).getD (.offlineDefault user)).look = site.store.look user := by
  rw [Site.current?, Store.look]
  cases hcached : site.cached? user with
  | none => rw [Option.none_or]
  | some record =>
    obtain ⟨row, hrow, hagrees⟩ := h.backed user record hcached
    rw [Option.some_or, Option.getD_some, hrow]
    exact hagrees.look_eq

namespace Network

open Site

section Parts

variable {ι κ : Type}

/-- The nodes use one cache, and have no peers to tell about it. -/
structure Shared (network : Network ι κ) : Prop where
  /-- All nodes use the same cache. -/
  homes : ∀ first second, network.home first = network.home second
  /-- No node has peers to tell about the cache. -/
  topic : ∀ worker, (network.node worker).topic.needsPeers = false

/-- The nodes use one cache that is in step with the store, and nothing but events for clients
is under way. -/
structure Pooled (network : Network ι κ) : Prop extends network.Shared where
  /-- The cache is in step with the store. -/
  inStep : ∀ node, (network.site node).InStep
  /-- Only events for clients are under way. -/
  events : ∀ sender receiver, ∀ event ∈ network.flight sender receiver,
    ∃ presence, event = .presenceChanged presence
  /-- Nothing is under way from a node to itself. -/
  own : ∀ node, network.flight node node = []

/-- The nodes follow one that makes the changes, or pool their cache. -/
def Follows (leader : ι) (network : Network ι κ) : Prop := network.Led leader ∨ network.Pooled

/-- What the clients of each node have seen, or will have once the node has handled what is
under way, are the events of a log. -/
structure Heard (worker : ι) (log : List PresenceEvent) (network : Network ι κ) : Prop where
  /-- The clients of the node that worked last have seen all events. -/
  own : (network.node worker).shown = log
  /-- What the clients of another node have not seen is under way from that one. -/
  others : ∀ node, node ≠ worker →
    (network.node node).shown ++ (network.flight worker node).filterMap Event.presence? = log
  /-- From other nodes nothing is under way for clients. -/
  silent : ∀ sender, sender ≠ worker → ∀ receiver,
    (network.flight sender receiver).filterMap Event.presence? = []

/-- The events of a log tell clients of every user what they are to see. -/
def Told (log : List PresenceEvent) (store : Store) : Prop :=
  ∀ user : String, Tells user (log.filter fun presence => presence.userId = user)
    (store.look user)

/-- What holds during a run in lockstep: nodes follow, and clients hear what they are to. -/
structure Streaming (worker : ι) (log : List PresenceEvent) (network : Network ι κ) : Prop where
  /-- The other nodes follow the one that worked last. -/
  follows : network.Follows worker
  /-- The clients of all nodes have heard the log, or will have. -/
  heard : network.Heard worker log
  /-- The log tells clients what they are to see. -/
  told : Told log network.store

variable {network : Network ι κ} {leader worker : ι} {log : List PresenceEvent}

theorem Follows.own (h : network.Follows leader) (node : ι) : network.flight node node = [] :=
  h.elim (fun hled => hled.own node) fun hpooled => hpooled.own node

/-- When nothing is under way every node is in step. -/
theorem Follows.inStep (h : network.Follows leader) (hsettled : network.Settled) (node : ι) :
    (network.site node).InStep :=
  h.elim (fun hled => hled.inStep hsettled node) fun hpooled => hpooled.inStep node

/-- When nothing is under way the clients of all nodes have seen the same events. -/
theorem Heard.settled (h : network.Heard worker log) (hsettled : network.Settled) (node : ι) :
    (network.node node).shown = log := by
  by_cases heq : node = worker
  · exact heq ▸ h.own
  · have hothers := h.others node heq
    rwa [hsettled, List.filterMap_nil, List.append_nil] at hothers

/-- In a network before its first step clients have heard nothing, and are to see nothing. -/
theorem Fresh.streaming {start : Network ι κ} (hfresh : start.Fresh)
    (hplaced : start.Local ∨ start.Shared) (hempty : start.store = ∅)
    (hquiet : ∀ node, (start.node node).shown = []) (worker : ι) :
    start.Streaming worker [] where
  follows := by
    rcases hplaced with hlocal | hshared
    · exact .inl (hlocal.led hfresh.settled hfresh.inStep worker)
    · refine .inr ⟨hshared, hfresh.inStep, fun sender receiver event hmem => ?_,
        fun node => hfresh.settled node node⟩
      rw [hfresh.settled] at hmem
      cases hmem
  heard := by
    refine ⟨hquiet worker, fun node _ => ?_, fun sender _ receiver => ?_⟩
    · rw [hquiet, hfresh.settled]
      rfl
    · rw [hfresh.settled]
      rfl
  told user := by
    refine ⟨List.isChain_nil, ?_⟩
    rw [hempty, Store.look, Std.ExtTreeMap.getElem?_empty]
    rfl

end Parts

variable {ι κ : Type} [DecidableEq ι] [DecidableEq κ]

/-- The steps of a network in lockstep in which no user is removed. -/
def Retaining (network : Network ι κ) (step : NetworkStep ι) : Prop :=
  network.Lockstep step ∧ ∀ worker user, step ≠ .operate worker (.remove user)

/-- The events for clients that the operations of a run publish, in order. -/
def announced (outside : ι → Outside) : Network ι κ → List (NetworkStep ι) → List PresenceEvent
  | _, [] => []
  | network, .operate worker operation :: rest =>
    ((operation.run (outside worker)).run (network.site worker)).2.published.filterMap
        Event.presence? ++
      announced outside (network.step outside (.operate worker operation)) rest
  | network, step :: rest => announced outside (network.step outside step) rest

variable {outside : ι → Outside} {network : Network ι κ} {worker sender receiver : ι}
  {log : List PresenceEvent} {later : Site}

/-- Clients of a node have seen what the node has shown, and those of other nodes the same as
before the node worked. -/
theorem shown_put (node : ι) :
    ((network.put worker later).node node).shown =
      if node = worker then later.shown else (network.node node).shown := by
  simp only [Network.put, Function.update_apply]
  split <;> rfl

namespace Heard

/-- Work that lets nothing out leaves what clients see as it is. -/
theorem put_silent (h : network.Heard worker log) {node : ι}
    (hpublished : later.published = []) (hshown : later.shown = (network.node node).shown) :
    (network.put node later).Heard worker log := by
  have hsame : ∀ one, ((network.put node later).node one).shown = (network.node one).shown := by
    intro one
    rw [shown_put]
    split
    · next heq => rw [heq, hshown]
    · rfl
  refine ⟨by rw [hsame, h.own], fun one hone => ?_, fun one hone other => ?_⟩
  · rw [hsame, flight_put_of_nil hpublished]
    exact h.others one hone
  · rw [flight_put_of_nil hpublished]
    exact h.silent one hone other

/-- A node that handles the next event shows it to its clients if it is for them. -/
theorem take (h : network.Heard worker log) {event : Event} {rest : List Event}
    (hown : network.flight worker worker = [])
    (hflight : network.flight sender receiver = event :: rest)
    (hpublished : later.published = [])
    (hshown : later.shown = (network.node receiver).shown ++ event.presence?.toList) :
    ((network.withFlight sender receiver rest).put receiver later).Heard worker log := by
  -- Only what is under way from the node that worked last is for clients.
  have hnext : sender ≠ worker → event.presence? = none ∧ rest.filterMap Event.presence? = [] := by
    intro hsender
    have hsilent := h.silent sender hsender receiver
    rw [hflight] at hsilent
    cases hpresence : event.presence? with
    | none => exact ⟨rfl, by rwa [List.filterMap_cons_none hpresence] at hsilent⟩
    | some presence => simp [List.filterMap_cons_some hpresence] at hsilent
  have hshows : ∀ one, (((network.withFlight sender receiver rest).put receiver later).node
      one).shown = if one = receiver then later.shown else (network.node one).shown :=
    fun one => shown_put one
  refine ⟨?_, fun one hone => ?_, fun one hone other => ?_⟩
  · rw [hshows]
    split
    · next heq =>
      have hsender : sender ≠ worker := by
        rintro rfl
        rw [← heq, hown] at hflight
        cases hflight
      rw [hshown, (hnext hsender).1, ← heq, h.own]
      exact List.append_nil log
    · exact h.own
  · rw [hshows, flight_take hpublished]
    have hothers := h.others one hone
    split
    · next heq =>
      subst heq
      by_cases hsender : worker = sender
      · subst hsender
        rw [if_pos ⟨rfl, rfl⟩, hshown, ← hothers, hflight, List.append_assoc]
        cases hpresence : event.presence? with
        | none => rw [List.filterMap_cons_none hpresence]; rfl
        | some presence => rw [List.filterMap_cons_some hpresence]; rfl
      · rw [if_neg fun heq => hsender heq.1, hshown, (hnext (Ne.symm hsender)).1]
        rw [Option.toList_none, List.append_nil]
        exact hothers
    · next hother => rw [if_neg fun heq => hother heq.2]; exact hothers
  · rw [flight_take hpublished]
    split
    · next heq => exact (hnext (heq.1 ▸ hone)).2
    · exact h.silent one hone other

/-- After an operation everybody has seen what it announced, or will have. -/
theorem operate (h : network.Heard worker log) (hsettled : network.Settled) {node : ι}
    (hechoes : (network.site node).Echoes later) :
    (network.put node later).Heard node (log ++ later.published.filterMap Event.presence?) := by
  obtain ⟨events, hpublished, hshown, -⟩ := hechoes.events
  obtain rfl : later.published = events := hpublished
  have hseen := h.settled hsettled
  refine ⟨?_, fun one hone => ?_, fun one hone other => ?_⟩
  · rw [shown_put, if_pos rfl, hshown, ← hseen node]
    rfl
  · rw [shown_put, if_neg hone, flight_put_of_ne hone, hsettled, hseen one, List.nil_append]
  · rw [flight_put_other hone, hsettled, List.filterMap_nil]

end Heard

namespace Pooled

/-- A node that works on the pooled cache leaves it in step for all. -/
theorem put (h : network.Pooled) (htopic : later.topic.needsPeers = false) (hinStep : later.InStep)
    (hevents : ∀ event ∈ later.published, ∃ presence, event = .presenceChanged presence) :
    (network.put worker later).Pooled where
  homes := h.homes
  topic node := by
    by_cases heq : node = worker
    · subst heq
      simpa [Network.put] using htopic
    · simpa [Network.put, Function.update_of_ne heq] using h.topic node
  inStep node := by
    refine ⟨hinStep.keyed, fun user => ?_⟩
    rw [cached?_put, if_pos (h.homes node worker)]
    exact hinStep.backed user
  events sender receiver event hmem := by
    have hmem' : event ∈ network.flight sender receiver ∨ event ∈ later.published := by
      simp only [Network.put] at hmem
      split at hmem
      · exact List.mem_append.mp hmem
      · exact .inl hmem
    exact hmem'.elim (h.events sender receiver event) (hevents event)
  own node := by
    by_cases heq : node = worker
    · rw [heq, flight_put_self, h.own]
    · rw [flight_put_other heq, h.own]

/-- An incident at a node leaves the pooled cache in step. -/
theorem incident (h : network.Pooled) (outside : ι → Outside) (worker : ι) (incident : Incident) :
    (network.step outside (.incident worker incident)).Pooled := by
  have hrefills := incident.befall_refills (network.site worker)
  refine h.put (hrefills.topic ▸ h.topic worker) ?_ fun event hmem => ?_
  · exact ((h.inStep worker).coherent.refills hrefills).inStep
  · rw [hrefills.published] at hmem
    cases hmem

/-- The delivery of an event for clients leaves the pooled cache in step. -/
theorem deliver (h : network.Pooled) (sender receiver : ι) :
    (network.deliver outside sender receiver 0).Pooled := by
  unfold Network.deliver
  cases hflight : network.flight sender receiver with
  | nil => exact h
  | cons event rest =>
    have hkept : (network.withFlight sender receiver rest).Pooled := by
      refine ⟨⟨h.homes, h.topic⟩, h.inStep, fun first second other hmem => ?_, fun node => ?_⟩
      · rw [flight_withFlight] at hmem
        split at hmem
        · next heq =>
          refine h.events sender receiver other ?_
          rw [hflight]
          exact List.mem_cons_of_mem event hmem
        · exact h.events first second other hmem
      · rw [flight_withFlight, if_neg, h.own]
        rintro ⟨rfl, rfl⟩
        rw [h.own] at hflight
        cases hflight
    obtain ⟨presence, rfl⟩ := h.events sender receiver event (hflight ▸ List.mem_cons_self)
    exact hkept.put (h.topic receiver) ⟨(h.inStep receiver).keyed, (h.inStep receiver).backed⟩
      fun _ => nofun

/-- An operation leaves the pooled cache in step. -/
theorem operate (hremoves : (outside worker).RemovesWork) (h : network.Pooled)
    (operation : Operation) : (network.operate outside worker operation).2.Pooled := by
  have hcoherent := Operation.run_coherent hremoves (h.inStep worker).coherent operation
  obtain ⟨htopic, events, hpublished, -, honly⟩ :=
    operation.run_frame (echoes_frame (outside worker)) (network.site worker)
  show (network.put worker ((operation.run (outside worker)).run (network.site worker)).2).Pooled
  refine h.put (htopic ▸ h.topic worker) (Coherent.inStep hcoherent) fun event hmem => ?_
  rw [hpublished] at hmem
  exact honly (h.topic worker) event hmem

end Pooled

namespace Follows

variable {leader : ι}

/-- Handling what is under way leaves the nodes following. -/
theorem handling (hworks : ∀ node, (outside node).CacheWorks) (h : network.Follows leader)
    {step : NetworkStep ι} (hallows : Handling network step) :
    (network.step outside step).Follows leader := by
  rcases h with hled | hpooled
  · exact .inl (hled.handling hworks hallows).1
  · cases step with
    | operate worker operation => cases hallows
    | incident worker incident => exact .inr (hpooled.incident outside worker incident)
    | deliver sender receiver place =>
      obtain rfl : place = 0 := hallows
      exact .inr (hpooled.deliver sender receiver)
    | lose sender receiver place => cases hallows
    | duplicate sender receiver place => cases hallows

/-- Once nothing is under way any node may work, and the others follow. -/
theorem operate (hworks : ∀ node, (outside node).CacheWorks) (h : network.Follows leader)
    (hsettled : network.Settled) (worker : ι) (operation : Operation) :
    (network.operate outside worker operation).2.Follows worker :=
  h.imp (fun hled => hled.operate hworks hsettled worker operation)
    fun hpooled => hpooled.operate (hworks worker).removesWork operation

end Follows

/-- An operation that removes nobody goes on telling clients what they are to see. -/
theorem Told.operate (hremoves : (outside worker).RemovesWork)
    (htruthful : (outside worker).Truthful) (h : Told log network.store)
    (hinStep : (network.site worker).InStep) {operation : Operation}
    (hkeeps : ∀ user, operation ≠ .remove user) :
    Told (log ++ ((operation.run (outside worker)).run
      (network.site worker)).2.published.filterMap Event.presence?)
      (network.operate outside worker operation).2.store := by
  intro user
  have hruns := Operation.run_runs hremoves hinStep.filed operation
  have hundergoes := Runs.undergoes hruns user
  have hannounces := hundergoes.announces htruthful
    (fun record hcached => hinStep.backed user record hcached) (hkeeps user)
  rw [List.filter_append]
  refine (h user).announces hannounces ?_
  exact Event.filterMap_announces? user _

namespace Streaming

/-- Handling what is under way changes nothing about what clients hear. -/
theorem handling (hworks : ∀ node, (outside node).CacheWorks) (h : network.Streaming worker log)
    {step : NetworkStep ι} (hallows : Handling network step) :
    (network.step outside step).Streaming worker log := by
  have hfollows := h.follows.handling hworks hallows
  cases step with
  | operate node operation => cases hallows
  | incident node incident =>
    have hrefills := incident.befall_refills (network.site node)
    have htold : Told log (incident.befall (network.site node)).store := by
      rw [hrefills.store]
      exact h.told
    refine ⟨hfollows, h.heard.put_silent hrefills.published ?_, htold⟩
    cases incident <;> rfl
  | deliver sender receiver place =>
    obtain rfl : place = 0 := hallows
    cases hflight : network.flight sender receiver with
    | nil =>
      have hnothing : network.step outside (.deliver sender receiver 0) = network := by
        simp only [Network.step, Network.deliver, hflight, List.getElem?_nil]
      rw [hnothing]
      exact h
    | cons event rest =>
      obtain ⟨hstore, hpublished, hshown⟩ :=
        Engine.receive_shows (outside receiver) event (network.site receiver)
      have htaken : network.step outside (.deliver sender receiver 0) =
          (network.withFlight sender receiver rest).put receiver
            ((Engine.receive (outside receiver) event).run (network.site receiver)).2 := by
        simp only [Network.step, Network.deliver, hflight, List.getElem?_cons_zero,
          List.eraseIdx_cons_zero]
        rfl
      have htold : Told log ((Engine.receive (outside receiver) event).run
          (network.site receiver)).2.store := by
        rw [hstore]
        exact h.told
      rw [htaken] at hfollows ⊢
      exact ⟨hfollows, h.heard.take (h.follows.own worker) hflight hpublished hshown, htold⟩
  | lose sender receiver place => cases hallows
  | duplicate sender receiver place => cases hallows

/-- An operation that removes nobody adds what it announces to what clients hear. -/
theorem operate (hworks : ∀ node, (outside node).CacheWorks)
    (htruthful : ∀ node, (outside node).Truthful) (h : network.Streaming worker log)
    (hsettled : network.Settled) (node : ι) {operation : Operation}
    (hkeeps : ∀ user, operation ≠ .remove user) :
    (network.operate outside node operation).2.Streaming node (log ++
      ((operation.run (outside node)).run (network.site node)).2.published.filterMap
        Event.presence?) where
  follows := h.follows.operate hworks hsettled node operation
  heard := h.heard.operate hsettled
    (operation.run_frame (echoes_frame (outside node)) (network.site node))
  told := Told.operate (hworks node).removesWork (htruthful node) h.told
    (h.follows.inStep hsettled node) hkeeps

/-- During a run in lockstep in which nobody is removed clients hear what is announced. -/
theorem run (hworks : ∀ node, (outside node).CacheWorks)
    (htruthful : ∀ node, (outside node).Truthful) (h : network.Streaming worker log)
    {steps : List (NetworkStep ι)} (hobeys : Obeys outside Retaining network steps) :
    ∃ last, (steps.foldl (Network.step outside) network).Streaming last
      (log ++ announced outside network steps) := by
  induction steps generalizing network worker log with
  | nil =>
    refine ⟨worker, ?_⟩
    rw [announced, List.append_nil]
    exact h
  | cons step rest ih =>
    obtain ⟨⟨hlockstep, hkeeps⟩, hrest⟩ := hobeys
    cases step with
    | operate node operation =>
      have hnext := h.operate hworks htruthful hlockstep node
        fun user hremoves => hkeeps node user (hremoves ▸ rfl)
      rw [announced, ← List.append_assoc]
      exact ih hnext hrest
    | incident node incident => exact ih (h.handling hworks trivial) hrest
    | deliver sender receiver place => exact ih (h.handling hworks hlockstep) hrest
    | lose sender receiver place => cases hlockstep
    | duplicate sender receiver place => cases hlockstep

end Streaming

/-- In lockstep the clients of every node see exactly what was announced, each event once. As
long as nobody is removed two events about a user that follow each other look different, and
whenever nothing is under way the last one looks like the user's current record on every
node, or like the default record if there was none. Calls to the store may fail, provided
that a failure to read a row is not reported as a missing row. -/
theorem streams_exact (hworks : ∀ node, (outside node).CacheWorks)
    (htruthful : ∀ node, (outside node).Truthful) {start : Network ι κ} (hfresh : start.Fresh)
    (hplaced : start.Local ∨ start.Shared) (hempty : start.store = ∅)
    (hquiet : ∀ node, (start.node node).shown = []) {steps : List (NetworkStep ι)}
    (hobeys : Obeys outside Retaining start steps)
    (hsettled : (steps.foldl (step outside) start).Settled) (node : ι) :
    ((steps.foldl (step outside) start).node node).shown = announced outside start steps ∧
      ∀ user : String,
        ((announced outside start steps).filter fun presence => presence.userId = user).IsChain
          (fun first second => first.look ≠ second.look) ∧
        lastLook user
            ((announced outside start steps).filter fun presence => presence.userId = user) =
          ((((steps.foldl (step outside) start).site node).current? user).getD
            (.offlineDefault user)).look := by
  have hstart := hfresh.streaming hplaced hempty hquiet node
  obtain ⟨last, hstreaming⟩ := hstart.run hworks htruthful hobeys
  rw [List.nil_append] at hstreaming
  refine ⟨hstreaming.heard.settled hsettled node, fun user => ?_⟩
  obtain ⟨hdiffers, hlast⟩ := hstreaming.told user
  refine ⟨hdiffers, hlast.trans ?_⟩
  exact ((hstreaming.follows.inStep hsettled node).look_current user).symm

/-- The store refuses two calls of every node. -/
def hesitant : Outside where
  storeFault count _ := if count = 3 || count = 5 then some (.refused .timedOut) else none
  cacheFault _ _ := none
  vanishes _ _ := false

/-- One node brings a user online and sets a do-not-disturb for another one, which the other
node restores; the store refuses the do-not-disturb and the sweep when they are first tried. -/
def sharedRun : List (NetworkStep Bool) :=
  [.operate true (.change "ada" (.online true)), .deliver true false 0, .deliver true false 0,
    .operate false (.read "ada"),
    .operate true (.change "bob" (.dndUntil 6000)),
    .operate true (.change "bob" (.dndUntil 6000)), .deliver true false 0, .deliver true false 0,
    .incident false (.setClock 7000), .operate false .expire, .operate false .expire,
    .deliver false true 0, .deliver false true 0]

/-- Clients of both nodes see the user come online, and the other one not to be disturbed and
then offline again. -/
theorem streams_exact_after_sharedRun :
    ((sharedRun.foldl (step fun _ => hesitant) pair).node true).shown =
        ((sharedRun.foldl (step fun _ => hesitant) pair).node false).shown ∧
      (((sharedRun.foldl (step fun _ => hesitant) pair).node true).shown.map fun presence =>
          (presence.userId, presence.status)) =
        [("ada", .online), ("bob", .dnd), ("bob", .offline)] ∧
      ((((sharedRun.foldl (step fun _ => hesitant) pair).site true).current? "bob").getD
        (.offlineDefault "bob")).look = ⟨.offline, false, none⟩ := by
  have hobeys : Obeys (fun _ => hesitant) Retaining pair sharedRun := by
    refine ⟨⟨fun _ _ => rfl, by nofun⟩, ⟨rfl, by nofun⟩, ⟨rfl, by nofun⟩, ⟨?_, by nofun⟩,
      ⟨?_, by nofun⟩, ⟨?_, by nofun⟩, ⟨rfl, by nofun⟩, ⟨rfl, by nofun⟩,
      ⟨trivial, by nofun⟩, ⟨?_, by nofun⟩, ⟨?_, by nofun⟩, ⟨rfl, by nofun⟩, ⟨rfl, by nofun⟩,
      trivial⟩ <;>
    · show Settled _
      unfold Settled
      decide +kernel
  have hsettled : (sharedRun.foldl (step fun _ => hesitant) pair).Settled := by
    unfold Settled
    decide +kernel
  have htruthful : hesitant.Truthful := by
    intro count user failure hfault
    simp only [hesitant] at hfault
    split at hfault <;> cases hfault
    rfl
  have hexact := streams_exact (fun _ _ _ => rfl) (fun _ => htruthful) pair_fresh
    (.inl pair_local) rfl (fun _ => rfl) hobeys hsettled
  obtain ⟨hfirst, htold⟩ := hexact true
  have hlast := (htold "bob").2
  refine ⟨hfirst.trans (hexact false).1.symm, ?_, ?_⟩
  · rw [hfirst]
    decide +kernel
  · rw [← hlast]
    decide +kernel

/-- If the store may report a failure to read a row as a missing row, clients may see the same
twice: a user who is in no cache any more is announced again. -/
theorem announced_twice_by_untruthful_store :
    ¬∀ (outside : Bool → Outside) (steps : List (NetworkStep Bool)),
      (∀ node, (outside node).CacheWorks) → Obeys outside Retaining pair steps →
      (steps.foldl (step outside) pair).Settled → ∀ user : String,
        ((announced outside pair steps).filter fun presence => presence.userId = user).IsChain
          fun first second => first.look ≠ second.look := by
  intro hclaim
  have hobeys : Obeys (fun _ => untruthful) Retaining pair
      [.operate true (.change "ada" (.online true)), .deliver true false 0, .deliver true false 0,
        .operate true .clearCaches, .deliver true false 0,
        .operate true (.change "ada" (.online true)), .deliver true false 0,
        .deliver true false 0] := by
    refine ⟨⟨fun _ _ => rfl, by nofun⟩, ⟨rfl, by nofun⟩, ⟨rfl, by nofun⟩, ⟨?_, by nofun⟩,
      ⟨rfl, by nofun⟩, ⟨?_, by nofun⟩, ⟨rfl, by nofun⟩, ⟨rfl, by nofun⟩, trivial⟩ <;>
    · show Settled _
      unfold Settled
      decide +kernel
  have hchain := hclaim (fun _ => untruthful) _ (fun _ _ _ => rfl) hobeys
    (by unfold Settled; decide +kernel) "ada"
  revert hchain
  decide +kernel

end Network

end PresenceTracker
