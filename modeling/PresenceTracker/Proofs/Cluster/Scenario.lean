import Mathlib.Data.Fintype.EquivFin
import PresenceTracker.Cluster.Scenario
import PresenceTracker.Proofs.Cluster.Leader
import PresenceTracker.Proofs.Cluster.World

/-!
# Scenarios as runs of a network

A step of a cluster after which everything is delivered is a run of single steps of a network. First
a node runs its errands in turn, then every listener handles what waits for it. Whoever works has
heard before of all that others did, so each time there is a node that leads and the others follow.
So after every scenario in which the caches work every cached record agrees with its row.
-/

namespace PresenceTracker

namespace Network

section Turns

variable {ι κ : Type} {network : Network ι κ} {leader worker : ι}

/-- The steps of a network in which a node begins an operation only when nothing is under way but
from itself, and in which what is under way is handled in order. -/
def InTurn (network : Network ι κ) : NetworkStep ι → Prop
  | .operate worker _ => ∀ sender receiver, sender ≠ worker → network.flight sender receiver = []
  | .incident _ _ => True
  | .deliver _ _ place => place = 0
  | .lose _ _ _ => False
  | .duplicate _ _ _ => False

/-- The next event from a node may always be handled. -/
theorem inTurn_next (network : Network ι κ) (sender receiver : ι) :
    InTurn network (.deliver sender receiver 0) := rfl

/-- After purges only, what is known is backed if it was before. -/
theorem backs_leavesAll_of_purges {store : Store} {user : String} {known : Option Record}
    (h : store.Backs user known) {events : List Event}
    (hpurges : ∀ event ∈ events, event = .invalidateCache .status none) :
    store.Backs user (Event.leavesAll .status user known events) := by
  induction events generalizing known with
  | nil => exact h
  | cons event rest ih =>
    obtain rfl := hpurges event List.mem_cons_self
    refine ih ?_ fun other hmem => hpurges other (List.mem_cons_of_mem _ hmem)
    rw [Event.leaves, if_pos ⟨rfl, .inl rfl⟩]
    exact Store.backs_none _ _

/-- A node may lead once nothing is under way but from itself. -/
theorem Led.turn (h : network.Led leader)
    (hown : ∀ sender receiver, sender ≠ worker → network.flight sender receiver = []) :
    network.Led worker := by
  by_cases hsame : worker = leader
  · exact hsame ▸ h
  have hinStep : ∀ node, (network.site node).InStep := by
    intro node
    by_cases hnode : node = leader
    · exact hnode ▸ h.leads
    · refine ⟨h.leads.keyed, fun user => ?_⟩
      have hfollows := h.follows node hnode user
      rw [hown leader node (Ne.symm hsame)] at hfollows
      exact hfollows
  refine ⟨h.toLocal, hinStep worker, fun node _ user => ?_, fun sender hsender receiver event => ?_,
    h.own⟩
  · exact backs_leavesAll_of_purges ((hinStep node).backed user) (h.purges worker hsame node)
  · rw [hown sender receiver hsender]
    exact fun hmem => absurd hmem List.not_mem_nil

end Turns

variable {ι κ : Type} [DecidableEq ι] [DecidableEq κ] {outside : ι → Outside}
  {network : Network ι κ} {leader : ι}

/-- Every step in turn leaves the network with a node that leads. -/
theorem Led.inTurn (hworks : ∀ node, (outside node).CacheWorks) (h : network.Led leader)
    {step : NetworkStep ι} (hallows : InTurn network step) :
    ∃ next, (network.step outside step).Led next := by
  cases step with
  | operate worker operation =>
    have hworker : network.Led worker := h.turn hallows
    exact ⟨worker, hworker.put_leader
      (Operation.run_coherent (hworks worker).removesWork hworker.leads.coherent operation)⟩
  | incident worker incident => exact ⟨leader, h.incident outside worker incident⟩
  | deliver sender receiver place =>
    obtain rfl : place = 0 := hallows
    exact ⟨leader, h.deliver hworks sender receiver⟩
  | lose sender receiver place => cases hallows
  | duplicate sender receiver place => cases hallows

/-- So does every run in turn. -/
theorem Led.runs_inTurn (hworks : ∀ node, (outside node).CacheWorks) (h : network.Led leader)
    {later : Network ι κ} (hreaches : Reaches outside InTurn network later) :
    ∃ next, later.Led next :=
  hreaches.keeps (fun between => ∃ next, between.Led next) ⟨leader, h⟩
    fun _ _ hallows ⟨_, hled⟩ => hled.inTurn hworks hallows

end Network

namespace Errand

/-- The operation that an errand runs. -/
def effect : Errand → Operation
  | operation asked => asked
  | job => .expire

/-- A pass of the sweep job is skipped while another one is under way. -/
def IsSkipped (errand : Errand) (jobUnderWay : Bool) : Prop := errand = job ∧ jobUnderWay = true

variable {errand : Errand} {jobUnderWay : Bool} {outside : Outside}

/-- An errand that is not skipped leaves what its operation leaves. -/
theorem run_effect (h : ¬ errand.IsSkipped jobUnderWay) (site : Site) :
    ((errand.run jobUnderWay outside).run site).2 =
      ((errand.effect.run outside).run site).2 := by
  cases errand with
  | operation asked => rfl
  | job =>
    have hfirst : jobUnderWay = false := Bool.eq_false_iff.mpr fun hunderWay => h ⟨rfl, hunderWay⟩
    subst hfirst
    rfl

/-- An errand that is skipped leaves everything as it is. -/
theorem run_skipped (h : errand.IsSkipped jobUnderWay) (site : Site) :
    ((errand.run jobUnderWay outside).run site).2 = site := by
  obtain ⟨rfl, rfl⟩ := h
  rfl

/-- An errand leaves the terms on which its node works. -/
theorem run_sameTerms (errand : Errand) (jobUnderWay : Bool) (outside : Outside) (site : Site) :
    Ensures (errand.run jobUnderWay outside) site fun _ later => site.SameTerms later := by
  by_cases hskipped : errand.IsSkipped jobUnderWay
  · rw [Ensures, run_skipped hskipped]
    exact .refl site
  · rw [Ensures, run_effect hskipped]
    exact errand.effect.run_frame (Site.sameTerms_frame outside) site

/-- An errand reads no notes, whether it is skipped or not. -/
theorem run_ignoresNotes (h : outside.Uniform) (errand : Errand) (jobUnderWay : Bool) :
    IgnoresNotes (errand.run jobUnderWay outside) := by
  cases errand with
  | operation asked => exact (asked.run_ignoresNotes h).bind fun _ => ignoresNotes_pure _
  | job =>
    cases jobUnderWay with
    | true => exact (ignoresNotes_pure _).bind fun _ => ignoresNotes_pure _
    | false =>
      have hjob : IgnoresNotes (Engine.runJob outside false) :=
        (Engine.expire_ignoresNotes h).bind fun _ => ignoresNotes_pure _
      exact hjob.bind fun _ => ignoresNotes_pure _

/-- A row of errands reads no notes: whether a pass of the sweep job is skipped depends on the
errands before it and on the settings. -/
theorem runAll_ignoresNotes (h : outside.Uniform) (errands : List Errand) (jobUnderWay : Bool) :
    IgnoresNotes (runAll outside jobUnderWay errands) := by
  induction errands generalizing jobUnderWay with
  | nil => exact ignoresNotes_pure _
  | cons errand rest ih =>
    refine (errand.run_ignoresNotes h jobUnderWay).bind fun _ => ?_
    exact ignoresNotes_get_bind (fun _ => (ih _).bind fun _ => ignoresNotes_pure _) fun _ _ => rfl

end Errand

/-- The errands of a step that runs some. -/
def NodeStep.errands? : NodeStep → Option (List Errand)
  | run errand => some [errand]
  | overlappingJobs => some [.job, .job]
  | parallel errands => some errands
  | abandon errand => some [errand]
  | _ => none

/-- In a step of work a node runs errands or has its settings replaced. -/
def NodeStep.IsWork : NodeStep → Prop
  | configure _ | enable _ => True
  | step => step.errands?.isSome

/-- A step changes only the clock, or how calls to the store fail. -/
def WorldStep.IsAmbient : WorldStep → Prop
  | setClock _ | advance _ | failStore _ _ | healStore _ => True
  | storeRow _ | peer _ => False

namespace World

/-- All messages of a cluster are from one node. -/
def OnlyFrom (world : World) (name : String) : Prop :=
  ∀ message ∈ world.messages, message.1 = some name

/-- What a node publishes is from it. -/
theorem OnlyFrom.left {world : World} {name : String} (h : world.OnlyFrom name) (member : Member)
    (site : Site) : (world.left name member site).OnlyFrom name := by
  intro message hmem
  rcases List.mem_append.mp hmem with hbefore | hnew
  · exact h message hbefore
  · obtain ⟨event, -, rfl⟩ := List.mem_map.mp hnew
    rfl

/-- Of several errands the first one may as well be run alone. -/
theorem onMember_runAll (world : World) (name : String) (member : Member) (errand : Errand)
    (rest : List Errand) (jobUnderWay : Bool) :
    ∃ underWay, (world.onMember name member fun outside =>
        Errand.runAll outside jobUnderWay (errand :: rest)).2 =
      ((world.onMember name member (errand.run jobUnderWay)).2.onMember name
        (memberAfter member
          ((errand.run jobUnderWay (world.outside member)).run (world.site member)).2)
        fun outside => Errand.runAll outside underWay rest).2 := by
  have hrest : ∀ result, IgnoresNotes (do
      let site ← get
      return result :: (← Errand.runAll (world.outside member)
        (jobUnderWay || (errand = .job && site.settings.enabled)) rest)) := by
    intro result
    refine ignoresNotes_get_bind (fun site => ?_) fun _ _ => rfl
    exact (Errand.runAll_ignoresNotes (outside_uniform world member) rest _).bind
      fun _ => ignoresNotes_pure _
  have hbind := onMember_bind world name member (errand.run jobUnderWay)
    (fun result outside => do
      let site ← get
      return result :: (← Errand.runAll outside
        (jobUnderWay || (errand = .job && site.settings.enabled)) rest))
    (errand.run_sameTerms jobUnderWay (world.outside member) (world.site member)) hrest
  exact ⟨_, (congrArg Prod.snd hbind).trans rfl⟩

/-- Errands are run by the node in a row. -/
theorem nodeStep_errands {step : NodeStep} {errands : List Errand}
    (h : step.errands? = some errands) (world : World) (name : String) (member : Member) :
    (world.nodeStep name member step).2 =
      (world.onMember name member fun outside => Errand.runAll outside false errands).2 := by
  cases step <;> cases h <;> rfl

/-- No step of a node changes the size of the channel. -/
theorem nodeStep_hubBuffer (world : World) (name : String) (member : Member) (step : NodeStep) :
    (world.nodeStep name member step).2.hubBuffer = world.hubBuffer := by
  cases step with
  | configure settings =>
    simp only [nodeStep]
    split <;> rfl
  | _ => rfl

/-- A change of the clock or of the failures of the store sends nothing. -/
theorem worldStep_messages {world : World} {step : WorldStep} (h : step.IsAmbient) :
    (world.fresh.worldStep step).2.messages = world.messages := by
  cases step with
  | storeRow _ | peer _ => cases h
  | _ => rfl

end World

namespace Network

variable {ι : Type} [DecidableEq ι] {outside : ι → Outside} {name : ι → String}
  {network : Network ι String} {world : World} {worker : ι} {member : Member}

namespace Models

/-- While all messages are from one node nothing is under way from any other one. -/
theorem flight_eq_nil (h : network.Models outside name world fun _ => world.messages)
    (honly : world.OnlyFrom (name worker)) (sender receiver : ι) (hne : sender ≠ worker) :
    network.flight sender receiver = [] := by
  rw [h.flight]
  split
  · rfl
  · refine List.filterMap_eq_nil_iff.mpr fun message hmem => if_neg fun heq => hne (h.named ?_)
    exact Option.some.inj (heq.symm.trans (honly message hmem))

/-- A node that does nothing publishes nothing. -/
theorem stays (h : network.Models outside name world fun _ => world.messages)
    (hmember : world.members[name worker]? = some member) :
    network.Models outside name (world.left (name worker) member (world.site member))
      fun _ => (world.left (name worker) member (world.site member)).messages := by
  have hmessages : (world.left (name worker) member (world.site member)).messages =
      world.messages := List.append_nil _
  rw [hmessages]
  exact h.idle hmember

/-- An errand of a node is a step of the network in turn. -/
theorem errand (h : network.Models outside name world fun _ => world.messages)
    (honly : world.OnlyFrom (name worker)) (hmember : world.members[name worker]? = some member)
    (errand : Errand) (jobUnderWay : Bool) :
    ∃ later, Reaches outside InTurn network later ∧
      later.Models outside name (world.onMember (name worker) member (errand.run jobUnderWay)).2
        (fun _ => (world.onMember (name worker) member (errand.run jobUnderWay)).2.messages) := by
  by_cases hskipped : errand.IsSkipped jobUnderWay
  · rw [World.onMember_eq, Errand.run_skipped hskipped]
    exact ⟨network, .start, h.stays hmember⟩
  · have hfaults := (h.standsFor_of_mem hmember).outside
    have huniform : (outside worker).Uniform := hfaults ▸ World.outside_uniform world member
    have hact := (h.act hmember (errand.run jobUnderWay) (errand.run_ignoresNotes huniform _)
      (errand.run_sameTerms jobUnderWay (outside worker) (world.site member))).2
    rw [Errand.run_effect hskipped, World.onMember_eq, hfaults] at hact
    refine ⟨_, .step (.operate worker errand.effect) .start (h.flight_eq_nil honly), ?_⟩
    rw [World.onMember_eq, hfaults]
    exact hact

/-- Errands that a node runs in a row are steps of the network in turn. -/
theorem runAll (h : network.Models outside name world fun _ => world.messages)
    (honly : world.OnlyFrom (name worker)) (hmember : world.members[name worker]? = some member)
    (errands : List Errand) (jobUnderWay : Bool) :
    ∃ later, Reaches outside InTurn network later ∧
      later.Models outside name (world.onMember (name worker) member fun outside =>
          Errand.runAll outside jobUnderWay errands).2
        (fun _ => (world.onMember (name worker) member fun outside =>
          Errand.runAll outside jobUnderWay errands).2.messages) := by
  induction errands generalizing network world member jobUnderWay with
  | nil => exact ⟨network, .start, h.stays hmember⟩
  | cons first rest ih =>
    obtain ⟨between, hreaches, hbetween⟩ := h.errand honly hmember first jobUnderWay
    obtain ⟨underWay, hrest⟩ :=
      World.onMember_runAll world (name worker) member first rest jobUnderWay
    obtain ⟨later, hreaches', hlater⟩ := ih hbetween (honly.left member _)
      (World.get?_members_left ..) underWay
    rw [hrest]
    exact ⟨later, hreaches.trans hreaches', hlater⟩

/-- New settings of a node are an incident in the network. -/
theorem configure (h : network.Models outside name world fun _ => [])
    (hmember : world.members[name worker]? = some member) (settings : TrackingSettings) :
    (network.step outside (.incident worker (.configure settings))).Models outside name
      { world with members := world.members.insert (name worker) { member with settings } }
      fun _ => [] := by
  obtain ⟨notes, hnotes, hsite⟩ := (h.standsFor_of_mem hmember).exists_notes
  refine h.put hmember rfl rfl rfl (fun _ => rfl) rfl ⟨notes, ?_⟩ fun other => ?_
  · rw [hsite]
    simp [Incident.befall, Site.noted, World.site, hnotes]
  · simp only [Incident.befall, hsite, World.site, Site.noted]
    split
    · next hkey => rw [hkey]
    · rfl

/-- A piece of work is done by the network in turn. What it publishes waits for all nodes. -/
theorem nodeStep (h : network.Models outside name world fun _ => []) (hquiet : world.messages = [])
    (hmember : world.members[name worker]? = some member) {step : NodeStep} (hwork : step.IsWork) :
    ∃ later, Reaches outside InTurn network later ∧
      later.Models outside name (world.nodeStep (name worker) member step).2
        fun _ => (world.nodeStep (name worker) member step).2.messages := by
  have hconfigure : ∀ settings, ∃ later, Reaches outside InTurn network later ∧
      later.Models outside name
        { world with members := world.members.insert (name worker) { member with settings } }
        fun _ => world.messages := fun settings =>
    ⟨_, .step (.incident worker (.configure settings)) .start trivial,
      hquiet ▸ h.configure hmember settings⟩
  cases herrands : step.errands? with
  | some errands =>
    rw [World.nodeStep_errands herrands]
    refine runAll (hquiet ▸ h) (fun message hmem => ?_) hmember errands false
    rw [hquiet] at hmem
    cases hmem
  | none =>
    cases step with
    | configure settings =>
      simp only [World.nodeStep]
      split
      · exact ⟨network, .start, hquiet ▸ h⟩
      · exact hconfigure _
    | enable enabled => exact hconfigure _
    | run _ | overlappingJobs | parallel _ | abandon _ => cases herrands
    | cache _ | failCache _ _ | healCache _ | plant _ _ => cases hwork

/-- A cluster has finitely many nodes. -/
theorem finite {pending : ι → List (Option String × Event)}
    (h : network.Models outside name world pending) : Finite ι := by
  have hmem : ∀ worker, name worker ∈ world.members.keys := by
    intro worker
    obtain ⟨member, hmember, -⟩ := h.member worker
    exact Std.ExtTreeMap.mem_keys.mpr (Table.mem_of_get?_eq_some hmember)
  exact Finite.of_injective
    (fun worker => (⟨name worker, hmem worker⟩ : {key // key ∈ world.members.keys}))
    fun first second heq => h.named (congrArg Subtype.val heq)

end Models

/-- A reading of the clock at some nodes. -/
def AtClock (network : Network ι String) (now : Moment) (workers : List ι)
    (later : Network ι String) : Prop :=
  later.home = network.home ∧ later.flight = network.flight ∧
    ∀ worker, later.site worker =
      if worker ∈ workers then { network.site worker with clock := now } else network.site worker

/-- The clocks of nodes can be set one after the other. -/
theorem exists_atClock (outside : ι → Outside) (network : Network ι String) (now : Moment)
    (workers : List ι) :
    ∃ later, Reaches outside InTurn network later ∧ network.AtClock now workers later := by
  induction workers with
  | nil => exact ⟨network, .start, rfl, rfl, fun _ => rfl⟩
  | cons worker rest ih =>
    obtain ⟨later, hreaches, hhome, hflight, hsite⟩ := ih
    refine ⟨_, .step (.incident worker (.setClock now)) hreaches trivial, hhome, ?_,
      fun other => ?_⟩
    · funext sender receiver
      rw [← hflight]
      exact flight_put_of_nil rfl sender receiver
    · by_cases hsame : other = worker
      · subst hsame
        rw [if_pos List.mem_cons_self]
        refine site_put_self.trans ?_
        rw [Incident.befall, hsite]
        split <;> rfl
      · have hmem : other ∈ worker :: rest ↔ other ∈ rest := by simp [hsame]
        refine (site_put_other hsame).trans ?_
        rw [if_congr hmem rfl rfl, ← hsite]
        simp only [Incident.befall, Network.site]
        split
        · next hkey => rw [hkey]
        · rfl

namespace Models

/-- A new reading of the clock is an incident at every node. -/
theorem setClock {pending : ι → List (Option String × Event)}
    (h : network.Models outside name world pending) (now : Moment) :
    ∃ later, Reaches outside InTurn network later ∧
      later.Models outside name { world with clock := now } pending := by
  have := h.finite
  obtain ⟨workers, -, hworkers⟩ := Finite.exists_univ_list ι
  obtain ⟨later, hreaches, hhome, hflight, hsite⟩ := exists_atClock outside network now workers
  refine ⟨later, hreaches, h.named, h.known, fun worker => ?_, fun sender receiver => ?_, h.senders⟩
  · obtain ⟨member, hmember, hstands⟩ := h.member worker
    obtain ⟨notes, hbefore⟩ := hstands.site
    refine ⟨member, hmember, hhome ▸ hstands.home, hstands.attached, hstands.outside, notes, ?_⟩
    rw [hsite, if_pos (hworkers worker), hbefore]
    rfl
  · rw [hflight, h.flight]

/-- What has been noted of a cluster is nothing that its nodes work on. -/
theorem fresh {pending : ι → List (Option String × Event)}
    (h : network.Models outside name world pending) :
    network.Models outside name world.fresh pending where
  named := h.named
  known key hmem := h.known key (by simpa [World.fresh] using hmem)
  member worker := by
    obtain ⟨member, hmember, hstands⟩ := h.member worker
    exact ⟨{ member with published := [], shown := [] },
      by rw [World.fresh, Table.get?_map, hmember, Option.map_some],
      hstands.home, hstands.attached, hstands.outside, hstands.site⟩
  flight := h.flight
  senders := h.senders

/-- An operation of the cluster gives what the operation of the network gives. -/
theorem answers {pending : ι → List (Option String × Event)}
    (h : network.Models outside name world pending)
    (hmember : world.members[name worker]? = some member) (operation : Operation) :
    (world.nodeStep (name worker) member (.run (.operation operation))).1 =
      .one ((network.operate outside worker operation).1.map .answer) := by
  have hfaults := (h.standsFor_of_mem hmember).outside
  have huniform : (outside worker).Uniform := hfaults ▸ World.outside_uniform world member
  have hact := (h.act hmember operation.run (operation.run_ignoresNotes huniform)
    (operation.run_frame (Site.sameTerms_frame _) _)).1
  rw [World.onMember_eq, hfaults] at hact
  show StepResult.one (((operation.run (world.outside member)).run (world.site member)).1.map _) = _
  rw [hfaults, ← hact]
  rfl

variable {σ : Type} {channel : Broadcast (Option String × Event) σ}
  {waits : σ → Nat → Option (List (Option String × Event))}

/-- A piece of work of the cluster with everything delivered afterwards is a run of the network in
turn, unless more messages are sent than the channel holds. -/
theorem runNodeStep (hchannel : channel.Documented waits)
    (h : network.Models outside name world fun _ => []) (hquiet : world.messages = [])
    {step : NodeStep} (hwork : step.IsWork) {key : String}
    (hfits : ∀ member, world.fresh.members[key]? = some member →
      (world.fresh.nodeStep key member step).2.messages.length ≤ world.hubBuffer)
    {result : StepResult} {after : World}
    (hrun : world.runNodeStep channel key step = some (result, after)) :
    ∃ later, Reaches outside InTurn network later ∧
      later.Models outside name after (fun _ => []) ∧ after.messages = [] := by
  obtain ⟨member, hmember, hresult⟩ := Option.map_eq_some_iff.mp hrun
  obtain ⟨-, rfl⟩ := Prod.mk.inj hresult
  obtain ⟨worker, rfl⟩ := h.fresh.known key (Table.mem_of_get?_eq_some hmember)
  obtain ⟨between, hreaches, hbetween⟩ := h.fresh.nodeStep hquiet hmember hwork
  have hbuffer : (world.fresh.nodeStep (name worker) member step).2.hubBuffer =
      world.hubBuffer := World.nodeStep_hubBuffer world.fresh (name worker) member step
  obtain ⟨later, hreaches', hlater⟩ := hbetween.settle inTurn_next hchannel
    (hbuffer ▸ hfits member hmember)
  exact ⟨later, hreaches.trans hreaches', hlater, rfl⟩

/-- Other failures of the store are met by the network too. -/
theorem setStoreFaults {pending : ι → List (Option String × Event)}
    (h : network.Models outside name world pending) (faults : List (StoreMethod × StoreFault)) :
    network.Models
      (fun worker => { outside worker with storeFault _ call := faults.lookup call.method }) name
      { world with storeFaults := faults } pending where
  named := h.named
  known := h.known
  member worker := by
    obtain ⟨member, hmember, hstands⟩ := h.member worker
    refine ⟨member, hmember, hstands.home, hstands.attached, ?_, hstands.site⟩
    rw [← hstands.outside]
    rfl
  flight := h.flight
  senders := h.senders

/-- A step that changes the clock is a run of the network in turn. One that changes how calls to the
store fail leaves the network as it is. -/
theorem worldStep (h : network.Models outside name world fun _ => []) {step : WorldStep}
    (hambient : step.IsAmbient) :
    ∃ (met : ι → Outside) (later : Network ι String),
      (∀ worker, (met worker).cacheFault = (outside worker).cacheFault) ∧
      Reaches outside InTurn network later ∧
      later.Models met name (world.worldStep step).2 fun _ => [] := by
  have hclock : ∀ now, ∃ (met : ι → Outside) (later : Network ι String),
      (∀ worker, (met worker).cacheFault = (outside worker).cacheFault) ∧
      Reaches outside InTurn network later ∧
      later.Models met name { world with clock := now } fun _ => [] := by
    intro now
    obtain ⟨later, hreaches, hlater⟩ := h.setClock now
    exact ⟨outside, later, fun _ => rfl, hreaches, hlater⟩
  have hfaults : ∀ faults, ∃ (met : ι → Outside) (later : Network ι String),
      (∀ worker, (met worker).cacheFault = (outside worker).cacheFault) ∧
      Reaches outside InTurn network later ∧
      later.Models met name { world with storeFaults := faults } fun _ => [] := fun faults =>
    ⟨fun worker => { outside worker with storeFault _ call := faults.lookup call.method },
      network, fun _ => rfl, .start, h.setStoreFaults faults⟩
  cases step with
  | setClock now => exact hclock now
  | advance duration => exact hclock _
  | failStore method fault => exact hfaults _
  | healStore method => exact hfaults _
  | storeRow record => cases hambient
  | peer event => cases hambient

/-- A network in which every cached record agrees with its row is a model of a cluster in which
that is so. -/
theorem agrees {pending : ι → List (Option String × Event)}
    (h : network.Models outside name world pending) (hagrees : network.Agrees) {key : String}
    (hmember : world.members[key]? = some member) {user : String} {record : Record}
    (hcached : (world.site member).cached? user = some record) :
    ∃ row, world.store[user]? = some row ∧ record.AgreesWith row := by
  obtain ⟨worker, rfl⟩ := h.known key (Table.mem_of_get?_eq_some hmember)
  obtain ⟨notes, hsite⟩ := (h.standsFor_of_mem hmember).site
  have hstore : network.store = world.store := congrArg Site.store hsite
  have hcache : (network.site worker).cached? user = some record := by
    rw [hsite]
    exact hcached
  exact hstore ▸ hagrees worker user record hcache

end Models

end Network

namespace World

section Runs

variable {σ : Type} (channel : Broadcast (Option String × Event) σ)

/-- What becomes of a cluster by steps that leave its caches working and write no rows past its
nodes, as long as a step sends no more messages than the channel of the transport is to hold. -/
inductive Reaches (start : World) : World → Prop where
  /-- No step was taken. -/
  | start : Reaches start start
  /-- A node has done a piece of work. -/
  | node {world after : World} (key : String) (step : NodeStep) (result : StepResult)
      (h : Reaches start world) (hwork : step.IsWork)
      (hfits : ∀ member, world.fresh.members[key]? = some member →
        (world.fresh.nodeStep key member step).2.messages.length ≤ world.hubBuffer)
      (hrun : world.runNodeStep channel key step = some (result, after)) : Reaches start after
  /-- The clock has changed, or how calls to the store fail. -/
  | ambient {world : World} (step : WorldStep) (h : Reaches start world)
      (hambient : step.IsAmbient) : Reaches start (world.runWorldStep channel step).2

end Runs

/-- A cluster before its first step: every node has a cache of its own that works and tells the
others about it, the caches are empty, and nothing is under way. -/
structure Begins (world : World) : Prop where
  /-- Every row stands under its user. -/
  keyed : world.store.Keyed
  /-- The caches are empty. -/
  caches : ∀ key : String, world.caches[key]?.getD ∅ = ∅
  /-- No message is under way. -/
  messages : world.messages = []
  /-- No two nodes use the same cache. -/
  homes : ∀ {key other : String} {member member' : Member}, world.members[key]? = some member →
    world.members[other]? = some member' → member.cacheKey = member'.cacheKey → key = other
  /-- Every node listens to the others. -/
  attached : ∀ {key : String} {member : Member}, world.members[key]? = some member →
    member.attached = true
  /-- Every node has the topic of node-local statuses. -/
  topic : ∀ {key : String} {member : Member}, world.members[key]? = some member →
    member.topic = .status
  /-- No call to a cache fails. -/
  working : ∀ {key : String} {member : Member}, world.members[key]? = some member →
    member.cacheFaults = []

/-- The node of a name. -/
def memberOf (world : World) (worker : {key // key ∈ world.members}) : Member :=
  world.members.get worker.val worker.property

/-- The node of a name is found under it. -/
theorem get?_memberOf (world : World) (worker : {key // key ∈ world.members}) :
    world.members[worker.val]? = some (world.memberOf worker) :=
  Std.ExtTreeMap.getElem?_eq_some_getElem worker.property

/-- The nodes of a cluster as those of a network in which nothing is under way. -/
def network (world : World) : Network {key // key ∈ world.members} String where
  home worker := (world.memberOf worker).cacheKey
  store := world.store
  caches key := world.caches[key]?.getD ∅
  node worker := world.site (world.memberOf worker)

namespace Begins

variable {start : World}

/-- The network of a cluster before its first step is a model of it. -/
theorem models (h : start.Begins) :
    start.network.Models (fun worker => start.outside (start.memberOf worker)) Subtype.val start
      fun _ => [] where
  named := Subtype.val_injective
  known key hmem := ⟨⟨key, hmem⟩, rfl⟩
  member worker := ⟨start.memberOf worker, start.get?_memberOf worker, rfl,
    h.attached (start.get?_memberOf worker), rfl, {},
    by simp [network, Network.site, site, Site.noted]⟩
  flight _ _ := by
    split <;> rfl
  senders _ message hmem := by cases hmem

/-- Every node of the network has a cache of its own. -/
theorem isLocal (h : start.Begins) : start.network.Local where
  homes first second heq :=
    Subtype.ext (h.homes (start.get?_memberOf first) (start.get?_memberOf second) heq)
  topic worker := h.topic (start.get?_memberOf worker)

/-- The network is one before its first step. -/
theorem isFresh (h : start.Begins) : start.network.Fresh := ⟨h.keyed, h.caches, fun _ _ => rfl⟩

/-- No call to a cache fails. -/
theorem cacheWorks (h : start.Begins) (worker : {key // key ∈ start.members}) :
    (start.outside (start.memberOf worker)).CacheWorks := by
  intro count call
  simp [outside, h.working (start.get?_memberOf worker)]

end Begins

/-- The nodes with which a cluster began are those of a network that is a model of it, and if there
are any one of them leads. -/
def Follows (start world : World) : Prop :=
  ∃ (outside : {key // key ∈ start.members} → Outside)
    (network : Network {key // key ∈ start.members} String),
    (∀ worker, (outside worker).CacheWorks) ∧
      network.Models outside Subtype.val world (fun _ => []) ∧
      ∀ _node : {key // key ∈ start.members}, ∃ leader, network.Led leader

variable {σ : Type} {channel : Broadcast (Option String × Event) σ}
  {waits : σ → Nat → Option (List (Option String × Event))} {start world : World}

/-- Before its first step any node of a cluster may lead. -/
theorem Begins.follows (h : start.Begins) : start.Follows start :=
  ⟨_, start.network, h.cacheWorks, h.models,
    fun node => ⟨node, h.isLocal.led h.isFresh.settled h.isFresh.inStep node⟩⟩

/-- After every run of a cluster nothing is under way, and a node leads. -/
theorem Reaches.follows (hchannel : channel.Documented waits) (hbegins : start.Begins)
    (hreaches : Reaches channel start world) : start.Follows world ∧ world.messages = [] := by
  induction hreaches with
  | start => exact ⟨hbegins.follows, hbegins.messages⟩
  | node key step result _ hwork hfits hrun ih =>
    obtain ⟨⟨outside, network, hworks, hmodels, hled⟩, hquiet⟩ := ih
    obtain ⟨later, hreaches, hlater, hafter⟩ :=
      hmodels.runNodeStep hchannel hquiet hwork hfits hrun
    refine ⟨⟨outside, later, hworks, hlater, fun node => ?_⟩, hafter⟩
    obtain ⟨leader, h⟩ := hled node
    exact h.runs_inTurn hworks hreaches
  | ambient step _ hambient ih =>
    obtain ⟨⟨outside, network, hworks, hmodels, hled⟩, hquiet⟩ := ih
    obtain ⟨met, between, hfaults, hreaches, hbetween⟩ := hmodels.fresh.worldStep hambient
    have hmet : ∀ worker, (met worker).CacheWorks := fun worker count call => by
      rw [hfaults]
      exact hworks worker count call
    have hsilent := (worldStep_messages hambient).trans hquiet
    obtain ⟨later, hreaches', hlater⟩ := Network.Models.settle Network.inTurn_next hchannel
      (by rw [hsilent]; exact Nat.zero_le _) (hsilent ▸ hbetween)
    refine ⟨⟨met, later, hmet, hlater, fun node => ?_⟩, rfl⟩
    obtain ⟨leader, h⟩ := hled node
    obtain ⟨leader', h'⟩ := h.runs_inTurn hworks hreaches
    exact h'.runs_inTurn hmet hreaches'

/-- After every run of a cluster, whichever calls to the store fail, a record that a node caches
differs from the user's row in the last activity at most. -/
theorem caches_agree (hchannel : channel.Documented waits) (hbegins : start.Begins)
    (hreaches : Reaches channel start world) {key : String} {member : Member}
    (hmember : world.members[key]? = some member) {user : String} {record : Record}
    (hcached : (world.site member).cached? user = some record) :
    ∃ row, world.store[user]? = some row ∧ record.AgreesWith row := by
  obtain ⟨⟨outside, network, -, hmodels, hled⟩, -⟩ := hreaches.follows hchannel hbegins
  obtain ⟨node, -⟩ := hmodels.known key (Table.mem_of_get?_eq_some hmember)
  obtain ⟨leader, h⟩ := hled node
  exact hmodels.agrees (h.agrees hmodels.settled) hmember hcached

/-- Two nodes with a cache each, and no rows yet. -/
def pair : World where
  clock := 5000
  members := (∅ : Table Member).insert "left" { cacheKey := "left" }
    |>.insert "right" { cacheKey := "right" }

/-- Every node of the two uses the cache of its name. -/
theorem eq_of_mem_pair {key : String} {member : Member} (h : pair.members[key]? = some member) :
    member = { cacheKey := key } := by
  rw [pair, Table.get?_insert, Table.get?_insert] at h
  split at h
  · next heq =>
    subst heq
    exact (Option.some.inj h).symm
  · split at h
    · next heq =>
      subst heq
      exact (Option.some.inj h).symm
    · simp at h

/-- The two nodes have not taken a step yet. -/
theorem pair_begins : pair.Begins where
  keyed := Store.keyed_empty
  caches key := by simp [pair]
  messages := rfl
  homes h h' heq := by
    rw [eq_of_mem_pair h, eq_of_mem_pair h'] at heq
    exact heq
  attached h := by rw [eq_of_mem_pair h]
  topic h := by rw [eq_of_mem_pair h]
  working h := by rw [eq_of_mem_pair h]

/-- One node notes that a user is online. -/
def noted : World :=
  ((pair.runNodeStep Queues.channel "left"
    (.run (.operation (.change "ada" (.online true))))).getD (.done, pair)).2

/-- The other node caches the user's row. -/
theorem caches_agree_after_noted :
    ∃ member record row, noted.members["right"]? = some member ∧
      (noted.site member).cached? "ada" = some record ∧ noted.store["ada"]? = some row ∧
        record.AgreesWith row := by
  have hreaches : Reaches Queues.channel pair noted := by
    refine .node "left" (.run (.operation (.change "ada" (.online true)))) _ .start rfl
      (fun member hmember => ?_) rfl
    obtain rfl := eq_of_mem_pair hmember
    decide +kernel
  have hcached : (noted.members["right"]?.bind fun member =>
      (noted.site member).cached? "ada").isSome := by decide +kernel
  obtain ⟨record, hrecord⟩ := Option.isSome_iff_exists.mp hcached
  obtain ⟨member, hmember, hrecord⟩ := Option.bind_eq_some_iff.mp hrecord
  obtain ⟨row, hrow, hagrees⟩ :=
    caches_agree Queues.channel_documented pair_begins hreaches hmember hrecord
  exact ⟨member, record, row, hmember, hrecord, hrow, hagrees⟩

end World

end PresenceTracker
