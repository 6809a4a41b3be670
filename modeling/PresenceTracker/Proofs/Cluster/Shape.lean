import PresenceTracker.Proofs.Cluster.Inheritance

/-!
# The shape of all records of a network

Whatever the nodes do, whichever calls fail, and in whatever order events arrive, late,
twice or never: every record of the network has the shape that the rules give. Handling a
late event may put an old record into a cache, but never a malformed one.
-/

namespace PresenceTracker.Network

variable {ι κ : Type} [DecidableEq ι] [DecidableEq κ]

/-- From a network without rows, whatever its nodes do and whatever becomes of their events,
every row, every cached record, every record under way and every record that an operation
gives has the shape of the rules. -/
theorem records_shaped {outside : ι → Outside} {start network : Network ι κ} (hfresh : start.Fresh)
    (hstore : start.store = ∅) (hreaches : Reaches outside (fun _ _ => True) start network) :
    (∀ (user : String) (row : Record), network.store[user]? = some row → row.Shaped) ∧
      (∀ node user record, (network.site node).cached? user = some record → record.Shaped) ∧
      (∀ sender receiver record, .updateStatus record ∈ network.flight sender receiver →
        record.Shaped) ∧
      ∀ worker operation answer, (network.operate outside worker operation).1 = .ok answer →
        answer.Gives Record.Shaped := by
  have hhas : network.Has Record.Shaped Record.Shaped :=
    hreaches.keeps (Has Record.Shaped Record.Shaped) (hfresh.has hstore) fun between step _ h =>
      h.step (fun _ => id) outside (handsOn_of_hereditary Record.Shaped.hereditary between step)
  refine ⟨hhas.rows, hhas.cached, fun sender receiver record hmem => ?_,
    fun worker operation answer hanswer => ?_⟩
  · exact hhas.flight sender receiver _ hmem record rfl
  · have hrun := Operation.run_hereditary Record.Shaped.hereditary (outside worker)
      (hhas.site worker) operation
    exact hrun.2 answer hanswer

/-- A deadline is set twice, and the other node hears of the second one first. -/
def disorderedRun : List (NetworkStep Bool) :=
  [.operate true (.change "ada" (.away true)), .operate true (.change "ada" (.dndUntil 6000)),
    .operate true (.change "ada" (.dndUntil 9000)), .lose true false 1, .duplicate true false 0,
    .deliver true false 3, .deliver true false 1]

/-- Whatever order the events arrive in, the other node caches a record of the shape, which
is not the user's row. -/
theorem records_shaped_after_disorderedRun :
    ∃ record row, ((disorderedRun.foldl (step fun _ => .calm) pair).site false).cached? "ada" =
        some record ∧ (disorderedRun.foldl (step fun _ => .calm) pair).store["ada"]? = some row ∧
      record.restoreTo = some .away ∧ record ≠ row ∧ record.Shaped ∧ row.Shaped := by
  have hreaches : Reaches (fun _ => .calm) (fun _ _ => True) pair
      (disorderedRun.foldl (step fun _ => .calm) pair) :=
    Reaches.start.foldl (by simp [Obeys, disorderedRun])
  have hcached : ((disorderedRun.foldl (step fun _ => .calm) pair).site false).cached? "ada" =
      some ⟨"ada", .dnd, true, 0, none, some .away, some 6000⟩ := by decide +kernel
  have hrow : (disorderedRun.foldl (step fun _ => .calm) pair).store["ada"]? =
      some ⟨"ada", .dnd, true, 0, none, some .away, some 9000⟩ := by decide +kernel
  obtain ⟨hrows, hcaches, -, -⟩ := records_shaped pair_fresh rfl hreaches
  exact ⟨_, _, hcached, hrow, rfl, by decide +kernel, hcaches false "ada" _ hcached,
    hrows "ada" _ hrow⟩

end PresenceTracker.Network
