import Mathlib.Control.Monad.Basic
import PresenceTracker.Proofs.Cluster.Inheritance
import PresenceTracker.Proofs.Engine.Succeeding

/-!
# Records that pass the check, all over a network

A full write checks its record, but the writes of an activity, the sweep, the caches and the
events do not. They need no check of their own, since whatever comes into the rows and is under
way to other nodes has passed it, unless a clock reads negative. One thing alone evades the
check: a last activity that a caller sets goes into the cache of a node as it is. If it lies
before the epoch then the cached record passes but for it, and every full write that starts
from that record fails.
-/

namespace PresenceTracker.Network

variable {ι κ : Type}

/-- No operation is run while the clock of its node reads negative, and callers set no other
last activities than those `noted`. -/
def Timely (noted : Moment → Prop) (network : Network ι κ) : NetworkStep ι → Prop
  | .operate worker operation => 0 ≤ (network.node worker).clock ∧
      ∀ user moment, operation = .setLastActivity user moment → noted moment
  | _ => True

/-- Every timely step hands on that rows pass the check, and cached records but for the last
activities that are noted. -/
theorem Timely.handsOn {noted : Moment → Prop} {network : Network ι κ} {step : NetworkStep ι}
    (h : network.Timely noted step) :
    network.HandsOn (fun record => record.validate = .ok ()) (Record.ValidBut noted) step := by
  cases step with
  | operate worker operation =>
    refine ⟨Record.validate_lineage noted h.1, ?_⟩
    cases operation with
    | setLastActivity user moment => exact fun record hrecord => hrecord.note (h.2 user moment rfl)
    | _ => trivial
  | _ => trivial

variable [DecidableEq ι] [DecidableEq κ]

/-- From a network without rows, if no clock reads negative, every row and every record under way
passes the check, and every cached record does but for a last activity that a caller set. Where
the store works and tracking is enabled, transitions that are applied to every record succeed for
a user with a good identifier, unless the node caches a last activity before the epoch. -/
theorem records_validate {outside : ι → Outside} {noted : Moment → Prop}
    {start network : Network ι κ} (hfresh : start.Fresh) (hstore : start.store = ∅)
    (hreaches : Reaches outside (Timely noted) start network) :
    (∀ (user : String) (row : Record), network.store[user]? = some row → row.validate = .ok ()) ∧
      (∀ sender receiver record, .updateStatus record ∈ network.flight sender receiver →
        record.validate = .ok ()) ∧
      (∀ node user record, (network.site node).cached? user = some record →
        record.ValidBut noted) ∧
      ∀ (later : ι → Outside) (worker : ι) (user : String) (transition : Transition),
        (∀ count call, (later worker).storeFault count call = none) →
        (network.node worker).settings.enabled = true → transition.isUnconditional = true →
        Record.checkUser user = .ok () →
        (∀ record, (network.site worker).cached? user = some record → 0 ≤ record.lastActivity) →
          ∃ record, (network.operate later worker (.change user transition)).1 =
            .ok (.record record) ∧ record.validate = .ok () := by
  have hhas : network.Has (fun record => record.validate = .ok ()) (Record.ValidBut noted) :=
    hreaches.keeps (Has _ _) (hfresh.has hstore) fun between step htimely h =>
      h.step (fun _ => Record.validBut_of_validate) outside htimely.handsOn
  refine ⟨hhas.rows, fun sender receiver record hmem => ?_, hhas.cached, ?_⟩
  · exact hhas.flight sender receiver _ hmem record rfl
  · intro later worker user transition hworks henabled happlied huser hactive
    have hcached : ∀ record, (network.site worker).cached? user = some record →
        record.validate = .ok () := fun record hrecord =>
      (hhas.cached worker user record hrecord).validate (hactive record hrecord)
    have hrun : Ensures (Operation.run (later worker) (.change user transition))
        (network.site worker) fun result _ =>
          ∃ record, result = .ok (.record record) ∧ record.validate = .ok () := by
      have hsite : (network.site worker).settings.enabled = true := henabled
      have hchange := Engine.change_succeeds hworks hsite happlied huser hcached (hhas.rows user)
      refine hchange.bind fun result _ hresult => ?_
      obtain ⟨record, rfl, hrecord⟩ := hresult
      exact ensures_pure ⟨record, rfl, hrecord⟩
    exact hrun

/-- A user comes online, the other node hears of it, and a last activity before the epoch is set
on the first node. -/
def backdatedRun : List (NetworkStep Bool) :=
  [.operate true (.change "ada" (.online true)), .deliver true false 0,
    .operate true (.setLastActivity "ada" (-5))]

/-- The node that heard of the user alone still lets the user choose. -/
theorem records_validate_after_backdatedRun :
    ∃ record row, ((backdatedRun.foldl (step fun _ => .calm) pair).site true).cached? "ada" =
        some record ∧ (backdatedRun.foldl (step fun _ => .calm) pair).store["ada"]? = some row ∧
      record.lastActivity = -5 ∧ record.ValidBut (· = -5) ∧ row.validate = .ok () ∧
      ∃ chosen, ((backdatedRun.foldl (step fun _ => .calm) pair).operate (fun _ => .calm) false
        (.change "ada" .dnd)).1 = .ok (.record chosen) ∧ chosen.validate = .ok () := by
  have hobeys : Obeys (fun _ => .calm) (Timely (· = -5)) pair backdatedRun := by
    refine ⟨⟨by decide, nofun⟩, trivial, ⟨by decide +kernel, fun user moment h => ?_⟩, trivial⟩
    cases h
    rfl
  have hreaches := Reaches.start.foldl hobeys
  have hcached : ((backdatedRun.foldl (step fun _ => .calm) pair).site true).cached? "ada" =
      some ⟨"ada", .online, false, -5, none, none, none⟩ := by decide +kernel
  have hrow : (backdatedRun.foldl (step fun _ => .calm) pair).store["ada"]? =
      some ⟨"ada", .online, false, 5000, none, none, none⟩ := by decide +kernel
  obtain ⟨hrows, -, hcaches, hsucceeds⟩ := records_validate pair_fresh rfl hreaches
  refine ⟨_, _, hcached, hrow, rfl, hcaches true "ada" _ hcached, hrows "ada" _ hrow, ?_⟩
  refine hsucceeds (fun _ => .calm) false "ada" .dnd (fun _ _ => rfl) (by decide +kernel) rfl
    (by decide +kernel) fun record hrecord => ?_
  have hheard : ((backdatedRun.foldl (step fun _ => .calm) pair).site false).cached? "ada" =
      some ⟨"ada", .online, false, 5000, none, none, none⟩ := by decide +kernel
  cases hheard.symm.trans hrecord
  decide

/-- The node on which the activity was set caches a record that fails the check, and refuses the
user's choice although the store works. -/
theorem choice_refused_after_backdatedRun :
    ∃ record, ((backdatedRun.foldl (step fun _ => .calm) pair).site true).cached? "ada" =
        some record ∧
      record.validate = .error (.plain .validation RecordFault.negativeActivity.message) ∧
      ((backdatedRun.foldl (step fun _ => .calm) pair).operate (fun _ => .calm) true
        (.change "ada" .dnd)).1 =
          .error (.plain .validation RecordFault.negativeActivity.message) :=
  ⟨⟨"ada", .online, false, -5, none, none, none⟩, by decide +kernel, by decide +kernel,
    by decide +kernel⟩

end PresenceTracker.Network
