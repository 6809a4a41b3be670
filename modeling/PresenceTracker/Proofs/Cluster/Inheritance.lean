import PresenceTracker.Proofs.Cluster.Network
import PresenceTracker.Proofs.Engine.Inheritance

/-!
# What every record of a network has

A property that is handed on by everything that makes records is kept by every step of a
network: by operations of nodes, whichever calls fail, and by events that arrive late, twice,
out of order or never, since an event carries what was a row of the node that sent it. As
within one node, what is only cached may have less than what is stored and under way.
-/

namespace PresenceTracker.Network

variable {ι κ : Type}

/-- Every record of a network has a property: one for rows and for what is under way, and
another one for what is cached. -/
structure Has (stored cached : Record → Prop) (network : Network ι κ) : Prop where
  /-- Every row has the first. -/
  rows : ∀ (user : String) (row : Record), network.store[user]? = some row → stored row
  /-- Every cached record has the second. -/
  cached : ∀ node user record, (network.site node).cached? user = some record → cached record
  /-- Every record under way has the first. -/
  flight : ∀ sender receiver, ∀ event ∈ network.flight sender receiver, event.Carries stored

variable {stored cached : Record → Prop} {network : Network ι κ}

/-- In a network without rows before its first step there are no records. -/
theorem Fresh.has (h : network.Fresh) (hstore : network.store = ∅) :
    network.Has stored cached where
  rows user row hrow := by
    rw [hstore] at hrow
    simp at hrow
  cached node user record hcached := by
    rw [Site.cached?_empty (h.caches (network.home node))] at hcached
    cases hcached
  flight sender receiver event hmem := by
    rw [h.settled] at hmem
    cases hmem

/-- What is asked of a step of a network so that it hands on a property: at the time of an
operation the property is handed on, and a last activity that it sets keeps it. -/
def HandsOn (stored cached : Record → Prop) (network : Network ι κ) : NetworkStep ι → Prop
  | .operate worker operation =>
    Record.Lineage (network.node worker).clock stored cached ∧ operation.Notes cached
  | _ => True

namespace Has

theorem site (h : network.Has stored cached) (node : ι) :
    (network.site node).Has stored cached where
  rows := h.rows
  cached := h.cached node
  published event hmem := by cases hmem

variable [DecidableEq ι]

/-- Other events may be under way if each was under way before. -/
theorem withFlight (h : network.Has stored cached) (sender receiver : ι) {events : List Event}
    (hevents : ∀ event ∈ events, event ∈ network.flight sender receiver) :
    (network.withFlight sender receiver events).Has stored cached where
  rows := h.rows
  cached := h.cached
  flight first second event hmem := by
    rw [flight_withFlight] at hmem
    split at hmem
    · exact h.flight sender receiver event (hevents event hmem)
    · exact h.flight first second event hmem

variable [DecidableEq κ]

/-- A node may leave any site all of whose records have the properties. -/
theorem put (h : network.Has stored cached) (worker : ι) {later : Site}
    (hlater : later.Has stored cached) : (network.put worker later).Has stored cached where
  rows := hlater.rows
  cached node user record hcached := by
    rw [cached?_put] at hcached
    split at hcached
    · exact hlater.cached user record hcached
    · exact h.cached node user record hcached
  flight sender receiver event hmem := by
    simp only [Network.put] at hmem
    split at hmem
    · rcases List.mem_append.mp hmem with hbefore | hnew
      · exact h.flight sender receiver event hbefore
      · exact hlater.published event hnew
    · exact h.flight sender receiver event hmem

/-- Every step that hands the properties on keeps them. -/
theorem step (hweaker : ∀ record, stored record → cached record) (h : network.Has stored cached)
    (outside : ι → Outside) {step : NetworkStep ι} (hstep : network.HandsOn stored cached step) :
    (network.step outside step).Has stored cached := by
  cases step with
  | operate worker operation =>
    have hlineage : Record.Lineage (network.site worker).clock stored cached := hstep.1
    have hrun := Operation.run_has (outside worker) hlineage hstep.2 (h.site worker)
    exact h.put worker hrun.1
  | incident worker incident =>
    have hrefills := incident.befall_refills (network.site worker)
    exact h.put worker ((h.site worker).refills hweaker hrefills)
  | deliver sender receiver place =>
    show (network.deliver outside sender receiver place).Has stored cached
    unfold Network.deliver
    split
    · next event hevent =>
      have hkept : (network.withFlight sender receiver
          ((network.flight sender receiver).eraseIdx place)).Has stored cached :=
        h.withFlight sender receiver fun _ => List.mem_of_mem_eraseIdx
      have hcarries := h.flight sender receiver event (List.mem_of_getElem? hevent)
      have hreceive :=
        Engine.receive_has (outside receiver) hweaker (hkept.site receiver) hcarries
      exact hkept.put receiver hreceive
    · exact h
  | lose sender receiver place =>
    exact h.withFlight sender receiver fun _ => List.mem_of_mem_eraseIdx
  | duplicate sender receiver place =>
    refine h.withFlight sender receiver fun event hmem => ?_
    rcases List.mem_append.mp hmem with hbefore | hagain
    · exact hbefore
    · exact List.mem_of_getElem? (Option.mem_toList.mp hagain)

end Has

/-- A property that is handed on at all times is handed on by every step. -/
theorem handsOn_of_hereditary {holds : Record → Prop} (hholds : Record.Hereditary holds)
    (network : Network ι κ) (step : NetworkStep ι) : network.HandsOn holds holds step := by
  cases step with
  | operate worker operation =>
    exact ⟨hholds.lineage (network.node worker).clock, hholds.notes operation⟩
  | _ => trivial

/-- From a network without rows, whatever its nodes do, every record has what is handed on at all
times. -/
theorem Reaches.has_of_hereditary [DecidableEq ι] [DecidableEq κ] {holds : Record → Prop}
    {outside : ι → Outside} {allows : Network ι κ → NetworkStep ι → Prop}
    {start network : Network ι κ} (hreaches : Reaches outside allows start network)
    (hholds : Record.Hereditary holds) (hfresh : start.Fresh) (hstore : start.store = ∅) :
    network.Has holds holds :=
  hreaches.keeps (Has holds holds) (hfresh.has hstore) fun between step _ h =>
    h.step (fun _ => id) outside (handsOn_of_hereditary hholds between step)

end PresenceTracker.Network
