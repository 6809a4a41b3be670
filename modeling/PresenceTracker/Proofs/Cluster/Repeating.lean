import PresenceTracker.Proofs.Cluster.ReadBack
import PresenceTracker.Proofs.Engine.Repeating

/-!
# Transitions that are repeated in a network

Whatever has happened in a network, once nothing fails on a node and its cache loses nothing, a
transition that is run on it twice in a row gives the same result again, whether a record or a
failure. The second run moves nothing anywhere: no row, no cache, no slot, and no message or event
is let out.
-/

namespace PresenceTracker.Network

variable {ι κ : Type} [DecidableEq ι] [DecidableEq κ]

/-- A node that takes up its work again has as little to do as it left. -/
theorem spent_put_self {network : Network ι κ} {worker : ι} {site : Site} {user : String}
    {transition : Transition} {result : Except Failure Record}
    (h : site.Spent user transition result) :
    ((network.put worker site).site worker).Spent user transition result := by
  rw [site_put_self]
  cases h with
  | disabled hdisabled => exact .disabled hdisabled
  | invalid henabled hinvalid => exact .invalid henabled hinvalid
  | refused henabled hvalid hreleased houtcome =>
    exact .refused henabled hvalid hreleased houtcome
  | kept henabled hvalid hreleased houtcome hrecord =>
    exact .kept henabled hvalid hreleased houtcome hrecord

/-- After anything that may have happened in a network, a transition that is run twice in a row on
a node where nothing fails gives the same result again, and the second run changes no row, no
cache and no slot, puts nothing under way, publishes nothing and shows nothing. -/
theorem repeated_change_moves_nothing {history present : ι → Outside} {start network : Network ι κ}
    (hfresh : start.Fresh) (hreaches : Reaches history (fun _ _ => True) start network)
    {worker : ι} (hflawless : (present worker).Flawless) {user : String} {transition : Transition}
    {first second : Except Failure Answer} {once twice : Network ι κ}
    (hfirst : network.operate present worker (.change user transition) = (first, once))
    (hsecond : once.operate present worker (.change user transition) = (second, twice)) :
    second = first ∧ twice.store = once.store ∧ twice.caches = once.caches ∧
      twice.flight = once.flight ∧ (twice.node worker).slots = (once.node worker).slots ∧
      (twice.node worker).published = [] ∧
      (twice.node worker).shown = (once.node worker).shown ∧
      ∀ other, other ≠ worker → twice.node other = once.node other := by
  have hfiled := hreaches.filed hfresh.filed
  obtain ⟨result, site, hrun, rfl, rfl⟩ := operate_change hfirst
  have hchanged := Engine.change_frame (Site.filed_frame (present worker)) user transition
    (network.site worker)
  have hspent := Engine.change_spends hflawless (hfiled.site worker) user transition
  rw [Ensures, hrun] at hchanged hspent
  have honce := hfiled.put worker (hchanged (hfiled.site worker))
  obtain ⟨again, last, hagain, rfl, rfl⟩ := operate_change hsecond
  have hrepeats := Engine.change_spent hflawless (honce.site worker) (spent_put_self hspent)
  rw [Ensures, hagain] at hrepeats
  obtain ⟨rfl, hunmoved⟩ := hrepeats
  rw [site_put_self] at hunmoved
  refine ⟨rfl, hunmoved.store, ?_, ?_, ?_, ?_, ?_, fun other hother => ?_⟩
  · have hcache : last.cache = site.cache := hunmoved.cache
    simp only [put, hcache, Function.update_idem]
  · funext sender receiver
    exact flight_put_of_nil hunmoved.published sender receiver
  · simpa only [put, Function.update_self] using hunmoved.slots
  · simpa only [put, Function.update_self] using hunmoved.published
  · simpa only [put, Function.update_self] using hunmoved.shown
  · simp only [put, Function.update_of_ne hother]

/-- The network after a user who was online has set a deadline. -/
def postponed : Network Bool Bool :=
  (quiet.operate (fun _ => .calm) true (.change "ada" (.dndUntil 99000))).2

/-- A deadline that is set once more gives the same record, which still says what is to follow,
and nothing comes under way. -/
theorem repeated_deadline_moves_nothing :
    ∃ record, (quiet.operate (fun _ => .calm) true (.change "ada" (.dndUntil 99000))).1 =
        .ok (.record record) ∧
      record.restoreTo = some .online ∧
      (postponed.operate (fun _ => .calm) true (.change "ada" (.dndUntil 99000))).1 =
        .ok (.record record) ∧
      (postponed.operate (fun _ => .calm) true (.change "ada" (.dndUntil 99000))).2.flight =
        postponed.flight := by
  have hreaches : Reaches (fun _ => .calm) (fun _ _ => True) pair quiet :=
    Reaches.start.foldl (by simp [Obeys, quietRun])
  have hresult : (quiet.operate (fun _ => .calm) true (.change "ada" (.dndUntil 99000))).1 =
      .ok (.record ⟨"ada", .dnd, true, 5000, none, some .online, some 99000⟩) := by decide +kernel
  have hfirst : quiet.operate (fun _ => .calm) true (.change "ada" (.dndUntil 99000)) =
      (.ok (.record ⟨"ada", .dnd, true, 5000, none, some .online, some 99000⟩), postponed) :=
    Prod.ext hresult rfl
  obtain ⟨hsame, -, -, hflight, -⟩ :=
    repeated_change_moves_nothing pair_fresh hreaches Outside.calm_flawless hfirst rfl
  exact ⟨_, hresult, rfl, hsame, hflight⟩

end PresenceTracker.Network
