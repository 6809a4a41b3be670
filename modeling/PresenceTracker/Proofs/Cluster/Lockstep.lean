import Mathlib.Data.Finite.Prod
import Mathlib.Data.Fintype.Card
import PresenceTracker.Proofs.Cluster.Leader

/-!
# Agreement in lockstep

Any node may run any operation, but an operation begins only when every other node has
handled what the one before it published. Then each operation has a leader of its own, and
when nothing is under way every cache of the cluster agrees with the store. So a user who
was removed is cached nowhere, and where a sweep restored a user no cache shows the passed
do-not-disturb any more.
-/

namespace PresenceTracker.Network

open Site

variable {ι κ : Type} [DecidableEq ι] [DecidableEq κ]

/-- The steps in which what is under way is handled in order. -/
def Handling (_network : Network ι κ) : NetworkStep ι → Prop
  | .operate _ _ => False
  | .incident _ _ => True
  | .deliver _ _ place => place = 0
  | .lose _ _ _ => False
  | .duplicate _ _ _ => False

/-- The steps of a network in which everything is handled before an operation begins. -/
def Lockstep (network : Network ι κ) : NetworkStep ι → Prop
  | .operate _ _ => network.Settled
  | .incident _ _ => True
  | .deliver _ _ place => place = 0
  | .lose _ _ _ => False
  | .duplicate _ _ _ => False

/-- A statement holds of every network in which everything has been handled that is under way
in this one. -/
def OnceHandled (outside : ι → Outside) (network : Network ι κ) (claim : Network ι κ → Prop) :
    Prop :=
  ∀ later, Reaches outside Handling network later → later.Settled → claim later

variable {outside : ι → Outside} {start network later : Network ι κ} {leader worker : ι}

/-- Handling what is under way changes no rows and leaves the others following. -/
theorem Led.handling (hworks : ∀ node, (outside node).CacheWorks) (h : network.Led leader)
    {step : NetworkStep ι} (hallows : Handling network step) :
    (network.step outside step).Led leader ∧ (network.step outside step).store = network.store := by
  cases step with
  | operate worker operation => cases hallows
  | incident worker incident =>
    exact ⟨h.incident outside worker incident,
      (incident.befall_refills (network.site worker)).store⟩
  | deliver sender receiver place =>
    obtain rfl : place = 0 := hallows
    exact ⟨h.deliver hworks sender receiver, h.store_deliver hworks sender receiver 0⟩
  | lose sender receiver place => cases hallows
  | duplicate sender receiver place => cases hallows

/-- When everything that was under way has been handled, the rows are the same and every cached
record agrees with its row. -/
theorem Led.onceHandled (hworks : ∀ node, (outside node).CacheWorks) (h : network.Led leader) :
    network.OnceHandled outside fun later => later.store = network.store ∧ later.Agrees := by
  intro later hreaches hsettled
  obtain ⟨hled, hstore⟩ : later.Led leader ∧ later.store = network.store := by
    refine hreaches.keeps (fun between => between.Led leader ∧ between.store = network.store)
      ⟨h, rfl⟩ fun between step hallows hbetween => ?_
    obtain ⟨hled, hstore⟩ := hbetween.1.handling hworks hallows
    exact ⟨hled, hstore.trans hbetween.2⟩
  exact ⟨hstore, hled.agrees hsettled⟩

/-- What is under way from one node to another can be handled, while the rest stays. -/
theorem Led.exists_drained (hworks : ∀ node, (outside node).CacheWorks) (h : network.Led leader)
    (sender receiver : ι) :
    ∃ later, Reaches outside Handling network later ∧ later.Led leader ∧
      ∀ first second, later.flight first second =
        if first = sender ∧ second = receiver then [] else network.flight first second := by
  induction hflight : network.flight sender receiver generalizing network with
  | nil =>
    refine ⟨network, .start, h, fun first second => ?_⟩
    split
    · next heq => rw [heq.1, heq.2, hflight]
    · rfl
  | cons event rest ih =>
    have hdeliver := h.flight_deliver hworks hflight
    obtain ⟨later, hreaches, hled, hlater⟩ := ih (h.deliver hworks sender receiver)
      (by rw [hdeliver, if_pos ⟨rfl, rfl⟩])
    have hnext : Reaches outside Handling network (network.deliver outside sender receiver 0) :=
      .step (.deliver sender receiver 0) .start rfl
    refine ⟨later, hnext.trans hreaches, hled, fun first second => ?_⟩
    rw [hlater, hdeliver]
    split <;> rfl

/-- In a network of finitely many nodes everything that is under way can be handled. -/
theorem Led.exists_handled [Finite ι] (hworks : ∀ node, (outside node).CacheWorks)
    (h : network.Led leader) : ∃ later, Reaches outside Handling network later ∧ later.Settled := by
  obtain ⟨pairs, -, hpairs⟩ := Finite.exists_univ_list (ι × ι)
  -- The pairs of nodes are drained one after the other, and a drained pair stays drained.
  have hdrain : ∀ drained : List (ι × ι), ∃ later, Reaches outside Handling network later ∧
      later.Led leader ∧ ∀ pair ∈ drained, later.flight pair.1 pair.2 = [] := by
    intro drained
    induction drained with
    | nil => exact ⟨network, .start, h, fun pair hmem => by cases hmem⟩
    | cons pair rest ih =>
      obtain ⟨between, hreaches, hled, hrest⟩ := ih
      obtain ⟨later, hreaches', hled', hlater⟩ := hled.exists_drained hworks pair.1 pair.2
      refine ⟨later, hreaches.trans hreaches', hled', fun other hmem => ?_⟩
      rw [hlater]
      split
      · rfl
      · next hother =>
        rcases List.mem_cons.mp hmem with rfl | hmem
        · exact absurd ⟨rfl, rfl⟩ hother
        · exact hrest other hmem
  obtain ⟨later, hreaches, -, hlater⟩ := hdrain pairs
  exact ⟨later, hreaches, fun sender receiver => hlater (sender, receiver) (hpairs _)⟩

/-- Once nothing is under way any node may lead the next operation. -/
theorem Led.operate (hworks : ∀ node, (outside node).CacheWorks) (h : network.Led leader)
    (hsettled : network.Settled) (worker : ι) (operation : Operation) :
    (network.operate outside worker operation).2.Led worker := by
  have hworker : network.Led worker := h.toLocal.led hsettled (h.inStep hsettled) worker
  have hremoves := (hworks worker).removesWork
  have hcoherent := Operation.run_coherent hremoves hworker.leads.coherent operation
  exact hworker.put_leader hcoherent

/-- An operation makes rows only for users with identifiers that pass the check. -/
theorem Led.accepted_operate (hworks : ∀ node, (outside node).CacheWorks) (h : network.Led leader)
    (hsettled : network.Settled) (haccepted : network.Accepted) (worker : ι)
    (operation : Operation) : (network.operate outside worker operation).2.Accepted := by
  have hcoherent := Operation.run_coherent (hworks worker).removesWork
    (h.inStep hsettled worker).coherent operation
  intro user row hrow
  rcases hcoherent.users user row hrow with ⟨before, hbefore⟩ | hchecked
  · exact haccepted user before hbefore
  · exact hchecked

/-- Every network that is reached in lockstep has a leader, and rows only for users with
identifiers that pass the check. -/
theorem exists_led (hworks : ∀ node, (outside node).CacheWorks) (hlocal : start.Local)
    (hfresh : start.Fresh) (haccepted : start.Accepted)
    (hreaches : Reaches outside Lockstep start network) (node : ι) :
    ∃ leader, network.Led leader ∧ network.Accepted := by
  have hstart : start.Led node := hlocal.led hfresh.settled hfresh.inStep node
  refine hreaches.keeps (fun between => ∃ leader, between.Led leader ∧ between.Accepted)
    ⟨node, hstart, haccepted⟩ ?_
  intro between step hallows hbetween
  obtain ⟨leader, hled, hchecked⟩ := hbetween
  have hhandling : Handling between step → ∃ leader, (between.step outside step).Led leader ∧
      (between.step outside step).Accepted := by
    intro hhandles
    obtain ⟨hnext, hstore⟩ := hled.handling hworks hhandles
    refine ⟨leader, hnext, fun user row hrow => hchecked user row ?_⟩
    rw [← hstore]
    exact hrow
  cases step with
  | operate worker operation =>
    exact ⟨worker, hled.operate hworks hallows worker operation,
      hled.accepted_operate hworks hallows hchecked worker operation⟩
  | incident worker incident => exact hhandling hallows
  | deliver sender receiver place => exact hhandling hallows
  | lose sender receiver place => cases hallows
  | duplicate sender receiver place => cases hallows

/-- A removal on a node with tracking enabled leaves no row of the user, and it succeeds if the
identifier passes the check. -/
theorem Led.store_remove (hfaultless : ∀ node, (outside node).Faultless) (h : network.Led leader)
    (hsettled : network.Settled) (haccepted : network.Accepted)
    (henabled : (network.site worker).settings.enabled = true) (user : String) :
    (Record.checkUser user = .ok () →
      (network.operate outside worker (.remove user)).1 = .ok .done) ∧
        (network.operate outside worker (.remove user)).2.store[user]? = none := by
  have hremoves : (outside worker).RemovesWork := (hfaultless worker).cache.removesWork
  cases hcheck : Record.checkUser user with
  | ok _ =>
    have hremove : Ensures (Engine.remove (outside worker) user) (network.site worker)
        fun result later => result = .ok () ∧ later.store[user]? = none := by
      have hok := Engine.remove_succeeds (hfaultless worker).store henabled hcheck
      have hgone := Engine.remove_coherent hremoves (h.inStep hsettled worker).coherent user
      exact ⟨hok, hgone.2 henabled hok⟩
    have hrun : Ensures ((Operation.remove user).run (outside worker)) (network.site worker)
        fun result later => result = .ok .done ∧ later.store[user]? = none := by
      refine hremove.bind fun result later hrun => ?_
      obtain ⟨rfl, hgone⟩ := hrun
      exact ensures_pure ⟨rfl, hgone⟩
    exact ⟨fun _ => hrun.1, hrun.2⟩
  | error failure =>
    have hnone : network.store[user]? = none := by
      cases hrow : network.store[user]? with
      | none => rfl
      | some row =>
        rw [haccepted user row hrow] at hcheck
        cases hcheck
    have hrun : Ensures ((Operation.remove user).run (outside worker)) (network.site worker)
        fun _ later => later.store[user]? = none := by
      have hrefuse : Ensures (Engine.remove (outside worker) user) (network.site worker) _ :=
        Engine.remove_refuses henabled hcheck
      refine hrefuse.bind fun result later hrun => ?_
      obtain ⟨-, rfl⟩ := hrun
      exact ensures_pure hnone
    exact ⟨nofun, hrun⟩

/-- After a removal on a node with tracking enabled has been handled everywhere no node caches
the user. -/
theorem Led.remove (hfaultless : ∀ node, (outside node).Faultless) (h : network.Led leader)
    (hsettled : network.Settled) (haccepted : network.Accepted)
    (henabled : (network.site worker).settings.enabled = true) (user : String) :
    (network.operate outside worker (.remove user)).2.OnceHandled outside fun later =>
      ∀ node, (later.site node).cached? user = none := by
  intro later hreaches hlater node
  have hworks : ∀ node, (outside node).CacheWorks := fun node => (hfaultless node).cache
  have hgone := (h.store_remove hfaultless hsettled haccepted henabled user).2
  obtain ⟨hstore, hagrees⟩ :=
    (h.operate hworks hsettled worker (.remove user)).onceHandled hworks later hreaches hlater
  cases hcached : (later.site node).cached? user with
  | none => rfl
  | some record =>
    obtain ⟨row, hrow, -⟩ := hagrees node user record hcached
    rw [hstore, hgone] at hrow
    cases hrow

/-- After a sweep has been handled everywhere, what a node caches of a restored user is the
restored record. -/
theorem Led.sweep (hfaultless : ∀ node, (outside node).Faultless) (h : network.Led leader)
    (hsettled : network.Settled) (worker : ι) :
    ∃ restored, (network.operate outside worker .expire).1 = .ok (.records restored) ∧
      restored.Perm (if (network.site worker).settings.enabled then
        network.store.expired (network.site worker).clock else []) ∧
      (network.operate outside worker .expire).2.OnceHandled outside fun later =>
        ∀ record ∈ restored, ∀ node known, (later.site node).cached? record.userId = some known →
          known.AgreesWith record ∧ known.manual = false ∧ known.deadline = none := by
  have hworks : ∀ node, (outside node).CacheWorks := fun node => (hfaultless node).cache
  obtain ⟨restored, hok, hrestored⟩ :=
    Engine.expire_succeeds (hfaultless worker).store (network.site worker)
  have hrows := (Engine.expire_coherent (hworks worker).removesWork
    (h.inStep hsettled worker).coherent).2 restored hok
  have hexpire : Ensures (Engine.expire (outside worker)) (network.site worker)
      fun result later => result = .ok restored ∧ ∀ record ∈ restored,
        later.store[record.userId]? = some record := ⟨hok, fun record hmem => (hrows record hmem).1⟩
  have hrun : Ensures (Operation.expire.run (outside worker)) (network.site worker)
      fun result later => result = .ok (.records restored) ∧ ∀ record ∈ restored,
        later.store[record.userId]? = some record := by
    refine hexpire.bind fun result later hrun => ?_
    obtain ⟨rfl, hstored⟩ := hrun
    exact ensures_pure ⟨rfl, hstored⟩
  have hturned : restored.Perm (if (network.site worker).settings.enabled then
      network.store.expired (network.site worker).clock else []) := by
    rw [hrestored]
    split
    · exact Site.turned_perm (outside worker) (network.site worker) _
    · exact .refl []
  refine ⟨restored, hrun.1, hturned, ?_⟩
  intro later hreaches hlater record hmem node known hknown
  obtain ⟨hstore, hagrees⟩ :=
    (h.operate hworks hsettled worker .expire).onceHandled hworks later hreaches hlater
  have hstored : (network.operate outside worker .expire).2.store[record.userId]? = some record :=
    hrun.2 record hmem
  obtain ⟨row, hrow, hknown'⟩ := hagrees node record.userId known hknown
  rw [hstore, hstored] at hrow
  cases hrow
  obtain ⟨-, hmanual, hdeadline⟩ := hrows record hmem
  obtain ⟨-, -, hsame, -, -, hsame'⟩ := (Record.agreesWith_iff known record).mp hknown'
  exact ⟨hknown', hsame.trans hmanual, hsame'.trans hdeadline⟩

/-- In lockstep every cached record agrees with the user's row whenever nothing is under way.
After a removal on a node with tracking enabled no node caches the user, and after a sweep
no node caches a do-not-disturb that the sweep restored. -/
theorem lockstep_agrees (hfaultless : ∀ node, (outside node).Faultless) (hlocal : start.Local)
    (hfresh : start.Fresh) (haccepted : start.Accepted)
    (hreaches : Reaches outside Lockstep start network) (hsettled : network.Settled) :
    network.Agrees ∧
      (∀ worker user, (network.site worker).settings.enabled = true →
        (Record.checkUser user = .ok () →
          (network.operate outside worker (.remove user)).1 = .ok .done) ∧
        (network.operate outside worker (.remove user)).2.OnceHandled outside fun later =>
          ∀ node, (later.site node).cached? user = none) ∧
      ∀ worker, ∃ restored,
        (network.operate outside worker .expire).1 = .ok (.records restored) ∧
        restored.Perm (if (network.site worker).settings.enabled then
          network.store.expired (network.site worker).clock else []) ∧
        (network.operate outside worker .expire).2.OnceHandled outside fun later =>
          ∀ record ∈ restored, ∀ node known, (later.site node).cached? record.userId = some known →
            known.AgreesWith record ∧ known.manual = false ∧ known.deadline = none := by
  have hworks : ∀ node, (outside node).CacheWorks := fun node => (hfaultless node).cache
  have hled := exists_led hworks hlocal hfresh haccepted hreaches
  refine ⟨fun node => ?_, fun worker user henabled => ?_, fun worker => ?_⟩
  · obtain ⟨leader, h, -⟩ := hled node
    exact h.agrees hsettled node
  · obtain ⟨leader, h, hchecked⟩ := hled worker
    exact ⟨(h.store_remove hfaultless hsettled hchecked henabled user).1,
      h.remove hfaultless hsettled hchecked henabled user⟩
  · obtain ⟨leader, h, -⟩ := hled worker
    exact h.sweep hfaultless hsettled worker

/-- One node sets a do-not-disturb, which the other node handles before its clock passes the
deadline. -/
def timedRun : List (NetworkStep Bool) :=
  [.operate true (.change "ada" (.dndUntil 6000)), .deliver true false 0, .deliver true false 0,
    .incident false (.setClock 7000)]

/-- The other node restores the user, and may remove the user as well. -/
theorem lockstep_agrees_after_timedRun :
    (timedRun.foldl (step fun _ => .calm) pair).Agrees ∧
      (((timedRun.foldl (step fun _ => .calm) pair).site false).cached? "ada").isSome ∧
      ((timedRun.foldl (step fun _ => .calm) pair).operate (fun _ => .calm) false
        (.remove "ada")).1 = .ok .done ∧
      ∃ restored, ((timedRun.foldl (step fun _ => .calm) pair).operate (fun _ => .calm) false
        .expire).1 = .ok (.records restored) ∧ restored.map Record.userId = ["ada"] := by
  have hreaches : Reaches (fun _ => .calm) Lockstep pair
      (timedRun.foldl (step fun _ => .calm) pair) :=
    Reaches.start.foldl ⟨fun _ _ => rfl, rfl, rfl, trivial, trivial⟩
  have hsettled : (timedRun.foldl (step fun _ => .calm) pair).Settled := by
    unfold Settled
    decide +kernel
  obtain ⟨hagrees, hremove, hsweep⟩ := lockstep_agrees (fun _ => Outside.calm_faultless) pair_local
    pair_fresh pair_accepted hreaches hsettled
  obtain ⟨restored, hok, hrestored, -⟩ := hsweep false
  have henabled := hremove false "ada" (by decide +kernel)
  refine ⟨hagrees, by decide +kernel, henabled.1 rfl, restored, hok, List.perm_singleton.mp ?_⟩
  refine (hrestored.map Record.userId).trans (.of_eq ?_)
  decide +kernel

/-- Two nodes, of which one has tracking disabled. -/
def halfDisabled : Network Bool Bool where
  home := id
  node worker := { clock := 5000, settings := { enabled := worker } }

/-- A removal on a node with tracking disabled succeeds, and the other node keeps the user. -/
theorem remove_succeeds_without_effect :
    ¬ ∀ network : Network Bool Bool, Reaches (fun _ => .calm) Lockstep halfDisabled network →
      network.Settled → ∀ worker user,
        (network.operate (fun _ => .calm) worker (.remove user)).1 = .ok .done →
          (network.operate (fun _ => .calm) worker (.remove user)).2.OnceHandled (fun _ => .calm)
            fun later => ∀ node, (later.site node).cached? user = none := by
  intro h
  have hreaches : Reaches (fun _ => .calm) Lockstep halfDisabled
      ([.operate true (.change "ada" (.online true)), .deliver true false 0,
        .deliver true false 0].foldl (step fun _ => .calm) halfDisabled) :=
    Reaches.start.foldl ⟨fun _ _ => rfl, rfl, rfl, trivial⟩
  have hnone := h _ hreaches (by unfold Settled; decide +kernel) false "ada" rfl _
    .start (by unfold Settled; decide +kernel) true
  revert hnone
  decide +kernel

end PresenceTracker.Network
