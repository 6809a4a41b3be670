import PresenceTracker.Proofs.Cluster.Leader

/-!
# Convergence with a single writer

One node makes all the changes, and the others read and purge. Messages may be under way for
as long as they like, but each arrives once and in the order of publication. Then a cache
may be behind for a while, but whenever nothing is under way every cache agrees with the
store, whatever was read, lost or purged in the meantime.
-/

namespace PresenceTracker.Network

variable {ι κ : Type} [DecidableEq ι] [DecidableEq κ]

/-- The steps of a network with a single writer whose messages arrive once and in order. -/
def SingleWriter (writer : ι) (_network : Network ι κ) : NetworkStep ι → Prop
  | .operate worker operation => worker = writer ∨ operation.onlyObserves = true
  | .incident _ _ => True
  | .deliver _ _ place => place = 0
  | .lose _ _ _ => False
  | .duplicate _ _ _ => False

variable {outside : ι → Outside} {start network : Network ι κ} {writer : ι}

/-- Every step with a single writer leaves the others following the writer. -/
theorem Led.singleWriter (hworks : ∀ node, (outside node).CacheWorks) (h : network.Led writer)
    {step : NetworkStep ι} (hallows : SingleWriter writer network step) :
    (network.step outside step).Led writer := by
  cases step with
  | operate worker operation =>
    by_cases heq : worker = writer
    · subst heq
      have hremoves := (hworks worker).removesWork
      have hcoherent := Operation.run_coherent hremoves h.leads.coherent operation
      exact h.put_leader hcoherent
    · have honly : operation.onlyObserves = true := hallows.resolve_left heq
      have hkeyed : (network.site worker).store.Keyed := h.leads.keyed
      have hobserves := Operation.run_observes (outside worker) honly hkeyed
      exact h.put_observer heq hobserves
  | incident worker incident => exact h.incident outside worker incident
  | deliver sender receiver place =>
    obtain rfl : place = 0 := hallows
    exact h.deliver hworks sender receiver
  | lose sender receiver place => cases hallows
  | duplicate sender receiver place => cases hallows

/-- With a single writer every cached record agrees with the user's row whenever nothing is
under way. -/
theorem singleWriter_agrees (hworks : ∀ node, (outside node).CacheWorks) (hlocal : start.Local)
    (hfresh : start.Fresh) (hreaches : Reaches outside (SingleWriter writer) start network)
    (hsettled : network.Settled) : network.Agrees := by
  have hstart : start.Led writer := hlocal.led hfresh.settled hfresh.inStep writer
  have hled : network.Led writer :=
    hreaches.keeps (Led writer) hstart fun _ _ hallows h => h.singleWriter hworks hallows
  exact hled.agrees hsettled

/-- The reader caches a row while an older record of the user is still under way to it. -/
def overtaking : List (NetworkStep Bool) :=
  [.operate true (.change "ada" (.offline true)), .operate true (.change "ada" (.online true)),
    .operate false (.read "ada"), .operate true (.change "ada" .outOfOffice),
    .operate false .clearCaches, .deliver true false 0, .deliver true false 0,
    .incident false (.vanish "ada"), .deliver true false 0, .deliver true false 0,
    .deliver false true 0, .deliver true false 0, .deliver true false 0]

/-- After late messages the reader's cache agrees with the store. -/
theorem singleWriter_agrees_after_overtaking :
    ∃ record row, ((overtaking.foldl (step fun _ => .calm) pair).site false).cached? "ada" =
        some record ∧ (overtaking.foldl (step fun _ => .calm) pair).store["ada"]? = some row ∧
      record.AgreesWith row := by
  have hreaches : Reaches (fun _ => .calm) (SingleWriter true) pair
      (overtaking.foldl (step fun _ => .calm) pair) :=
    Reaches.start.foldl (by simp [Obeys, overtaking, SingleWriter, Operation.onlyObserves])
  have hsettled : (overtaking.foldl (step fun _ => .calm) pair).Settled := by
    unfold Settled
    decide +kernel
  have hcached : ((overtaking.foldl (step fun _ => .calm) pair).site false).cached? "ada" =
      some ⟨"ada", .outOfOffice, true, 5000, none, none, none⟩ := by decide +kernel
  obtain ⟨row, hrow, hagrees⟩ := singleWriter_agrees (fun _ => Outside.calm_faultless.cache)
    pair_local pair_fresh hreaches hsettled false "ada" _ hcached
  exact ⟨_, row, hcached, hrow, hagrees⟩

end PresenceTracker.Network
