import PresenceTracker.Proofs.Cluster.Network

/-!
# Nodes with tracking disabled

While tracking is disabled on a node, every operation on it succeeds without effect: no row, no
cache, no count and no slot changes, and no message or event is let out, whatever the operation
is given. So the operations that a network performs on such nodes can be left out of a run. The
others give the same results, and the network ends in the same state.
-/

namespace PresenceTracker

/-- What is done only where tracking is enabled has no effect elsewhere. -/
theorem Engine.ensures_disabled {α β : Type} {site : Site}
    (hdisabled : site.settings.enabled = false) (idle : α) (work : StateM Site α) (give : α → β) :
    Ensures
      ((do if !(← get).settings.enabled then return idle else work) >>=
        fun value => pure (give value))
      site fun result later => result = give idle ∧ later = site := by
  have hgate : Ensures (do if !(← get).settings.enabled then return idle else work) site
      fun result later => result = idle ∧ later = site := by
    refine ensures_get_bind ?_
    rw [hdisabled]
    exact ensures_pure ⟨rfl, rfl⟩
  exact hgate.bind fun _ _ hidle => ensures_pure ⟨congrArg give hidle.1, hidle.2⟩

namespace Operation

/-- What an operation gives back while tracking is disabled. -/
def idleAnswer : Operation → Answer
  | change user _ | read user | readOrDefault user => .record (.offlineDefault user)
  | readMany _ | expire => .records []
  | setLastActivity _ _ | remove _ | clearCaches => .done

/-- While tracking is disabled an operation succeeds and leaves the node as it is, whatever it is
given. -/
theorem run_disabled {site : Site} (hdisabled : site.settings.enabled = false)
    (outside : Outside) (operation : Operation) :
    (operation.run outside).run site = (.ok operation.idleAnswer, site) := by
  have hrun : Ensures (operation.run outside) site fun result later =>
      result = .ok operation.idleAnswer ∧ later = site := by
    cases operation with
    | readOrDefault user =>
      have hread : Ensures (Engine.read outside user) site fun result later =>
          result = .ok (.offlineDefault user) ∧ later = site :=
        Engine.ensures_disabled hdisabled _ _ id
      have hdefault : Ensures (Engine.readOrDefault outside user) site fun record later =>
          record = .offlineDefault user ∧ later = site :=
        hread.bind fun _ _ hidle => hidle.1 ▸ ensures_pure ⟨rfl, hidle.2⟩
      exact hdefault.bind fun _ _ hidle => ensures_pure ⟨hidle.1 ▸ rfl, hidle.2⟩
    | change | read | readMany | setLastActivity | remove | clearCaches | expire =>
      exact Engine.ensures_disabled hdisabled _ _ _
  exact Prod.ext hrun.1 hrun.2

end Operation

namespace Network

/-- Two networks are in the same state. A node finds rows and cache as the network has them, so the
copies that it has from its last work do not count. -/
structure Matches {ι κ : Type} (network other : Network ι κ) : Prop where
  /-- Every node uses the same cache. -/
  home : other.home = network.home
  /-- The rows are the same. -/
  store : other.store = network.store
  /-- The caches hold the same. -/
  caches : other.caches = network.caches
  /-- The same is under way. -/
  flight : other.flight = network.flight
  /-- Every node works on the same. -/
  site : ∀ worker, other.site worker = network.site worker

/-- An operation that was performed in a network. -/
structure Performed (ι : Type) where
  /-- The node. -/
  worker : ι
  /-- The operation. -/
  operation : Operation
  /-- Whether tracking was enabled on the node. -/
  enabled : Bool
  /-- What the operation gave back. -/
  result : Except Failure Answer

theorem Matches.refl {ι κ : Type} (network : Network ι κ) : network.Matches network :=
  ⟨rfl, rfl, rfl, rfl, fun _ => rfl⟩

theorem Matches.trans {ι κ : Type} {network other last : Network ι κ}
    (h : network.Matches other) (h' : other.Matches last) : network.Matches last :=
  ⟨h'.home.trans h.home, h'.store.trans h.store, h'.caches.trans h.caches,
    h'.flight.trans h.flight, fun worker => (h'.site worker).trans (h.site worker)⟩

theorem Matches.settings {ι κ : Type} {network other : Network ι κ} (h : network.Matches other)
    (worker : ι) : (other.node worker).settings = (network.node worker).settings := by
  have hsite : (other.site worker).settings = (network.site worker).settings := by rw [h.site]
  exact hsite

variable {ι κ : Type} [DecidableEq ι] {network other : Network ι κ}

/-- Networks that match do so with other events under way. -/
theorem Matches.withFlight (h : network.Matches other) (sender receiver : ι)
    (events : List Event) :
    (network.withFlight sender receiver events).Matches
      (other.withFlight sender receiver events) where
  home := h.home
  store := h.store
  caches := h.caches
  flight := by simp only [Network.withFlight, h.flight]
  site := h.site

variable [DecidableEq κ]

/-- Networks that match do so after a node has left both at the same site. -/
theorem Matches.put (h : network.Matches other) (worker : ι) (site : Site) :
    (network.put worker site).Matches (other.put worker site) where
  home := h.home
  store := rfl
  caches := by simp only [Network.put, h.home, h.caches]
  flight := by simp only [Network.put, h.flight]
  site peer := by
    have hpeer := h.site peer
    simp only [Network.site, Network.put, h.home, h.caches] at hpeer ⊢
    by_cases hsame : peer = worker
    · subst hsame
      simp only [Function.update_self]
    · rw [Function.update_of_ne hsame, Function.update_of_ne hsame]
      simp only [Site.mk.injEq, true_and] at hpeer ⊢
      simp only [hpeer, and_self]

/-- Networks that match take the same steps. -/
theorem Matches.step (h : network.Matches other) (outside : ι → Outside) (step : NetworkStep ι) :
    (network.step outside step).Matches (other.step outside step) := by
  cases step with
  | operate worker operation =>
    simp only [Network.step, operate, h.site]
    exact h.put worker _
  | incident worker incident =>
    simp only [Network.step, h.site]
    exact h.put worker _
  | deliver sender receiver place =>
    simp only [Network.step, deliver, h.flight]
    split
    · next event =>
      have hkept := h.withFlight sender receiver ((network.flight sender receiver).eraseIdx place)
      rw [hkept.site]
      exact hkept.put receiver _
    · exact h
  | lose sender receiver place =>
    simp only [Network.step, h.flight]
    exact h.withFlight sender receiver _
  | duplicate sender receiver place =>
    simp only [Network.step, h.flight]
    exact h.withFlight sender receiver _

/-- A node that leaves the site that it found leaves the network as it was. -/
theorem matches_put_site (network : Network ι κ) (worker : ι) :
    network.Matches (network.put worker (network.site worker)) where
  home := rfl
  store := rfl
  caches := Function.update_eq_self _ _
  flight := by
    funext sender receiver
    exact flight_put_of_nil rfl sender receiver
  site peer := by
    simp only [Network.site, put, Function.update_eq_self]
    by_cases hsame : peer = worker
    · rw [hsame, Function.update_self]
    · rw [Function.update_of_ne hsame]

/-- Whether a step is an operation on a node while tracking is disabled there. -/
def isIdle (network : Network ι κ) : NetworkStep ι → Bool
  | .operate worker _ => !(network.node worker).settings.enabled
  | _ => false

/-- A run without the operations on nodes while tracking is disabled there. -/
def busySteps (outside : ι → Outside) (network : Network ι κ) :
    List (NetworkStep ι) → List (NetworkStep ι)
  | [] => []
  | step :: rest =>
    if network.isIdle step then (network.step outside step).busySteps outside rest
    else step :: (network.step outside step).busySteps outside rest

/-- The operation that is performed in a step, if it is one. -/
def performs (outside : ι → Outside) (network : Network ι κ) : NetworkStep ι → List (Performed ι)
  | .operate worker operation =>
    [⟨worker, operation, (network.node worker).settings.enabled,
      (network.operate outside worker operation).1⟩]
  | _ => []

/-- The operations that are performed in a run, in order. -/
def performed (outside : ι → Outside) (network : Network ι κ) :
    List (NetworkStep ι) → List (Performed ι)
  | [] => []
  | step :: rest =>
    network.performs outside step ++ (network.step outside step).performed outside rest

/-- In networks that match the same operation is performed in a step. -/
theorem Matches.performs (h : network.Matches other) (outside : ι → Outside)
    (step : NetworkStep ι) : other.performs outside step = network.performs outside step := by
  cases step with
  | operate worker operation =>
    simp only [Network.performs, operate, h.site, h.settings]
    rfl
  | incident | deliver | lose | duplicate => rfl

/-- In networks that match the same operations are performed in a run. -/
theorem Matches.performed (h : network.Matches other) (outside : ι → Outside)
    (run : List (NetworkStep ι)) : other.performed outside run = network.performed outside run := by
  induction run generalizing network other with
  | nil => rfl
  | cons step rest ih =>
    rw [Network.performed, Network.performed, h.performs, ih (h.step outside step)]

/-- Networks that match do so after a run. -/
theorem Matches.foldl (h : network.Matches other) (outside : ι → Outside)
    (run : List (NetworkStep ι)) :
    (run.foldl (Network.step outside) network).Matches
      (run.foldl (Network.step outside) other) := by
  induction run generalizing network other with
  | nil => exact h
  | cons step rest ih => exact ih (h.step outside step)

/-- An operation on a node while tracking is disabled there leaves the network as it was. -/
theorem matches_step_of_isIdle {step : NetworkStep ι} (hidle : network.isIdle step = true)
    (outside : ι → Outside) : network.Matches (network.step outside step) := by
  cases step with
  | operate worker operation =>
    have hdisabled : (network.node worker).settings.enabled = false := by
      simpa only [isIdle, Bool.not_eq_true'] using hidle
    have hsite : (network.site worker).settings.enabled = false := hdisabled
    simp only [Network.step, operate, Operation.run_disabled hsite]
    exact network.matches_put_site worker
  | incident | deliver | lose | duplicate => cases hidle

/-- Tracking is enabled for the operations performed in a step that is not idle, and for no
others. -/
theorem filter_performs (outside : ι → Outside) (network : Network ι κ) (step : NetworkStep ι) :
    (network.performs outside step).filter Performed.enabled =
      if network.isIdle step then [] else network.performs outside step := by
  cases step with
  | operate worker operation =>
    cases henabled : (network.node worker).settings.enabled <;> simp [performs, isIdle, henabled]
  | incident | deliver | lose | duplicate => rfl

/-- While tracking is disabled on a node, every operation on it succeeds and leaves everything as
it is. So the operations that are performed while it is disabled can be left out of any run of a
network: the others give the same results, and the network ends in the same state. -/
theorem disabled_operations_leave_no_trace (outside : ι → Outside) (start : Network ι κ)
    (run : List (NetworkStep ι)) :
    (∀ (outside : Outside) (site : Site) (operation : Operation),
      site.settings.enabled = false →
        (operation.run outside).run site = (.ok operation.idleAnswer, site)) ∧
    start.performed outside (start.busySteps outside run) =
      (start.performed outside run).filter Performed.enabled ∧
    ((start.busySteps outside run).foldl (Network.step outside) start).Matches
      (run.foldl (Network.step outside) start) := by
  refine ⟨fun outside site operation hdisabled => operation.run_disabled hdisabled outside, ?_⟩
  induction run generalizing start with
  | nil => exact ⟨rfl, .refl start⟩
  | cons step rest ih =>
    obtain ⟨hperformed, hmatches⟩ := ih (start.step outside step)
    rw [performed, List.filter_append, filter_performs, ← hperformed, busySteps]
    cases hidle : start.isIdle step with
    | false => exact ⟨rfl, hmatches⟩
    | true =>
      have hsame := matches_step_of_isIdle hidle outside
      exact ⟨(hsame.performed outside _).symm, (hsame.foldl outside _).trans hmatches⟩

/-- One node is switched off for a while, in which its clients go on and a message comes in. -/
def toggledRun : List (NetworkStep Bool) :=
  [.operate true (.change "ada" (.online true)), .deliver true false 0,
    .incident true (.configure { enabled := false }), .operate true (.remove "ada"),
    .operate true (.change "" .activity), .operate true .clearCaches,
    .operate false (.change "ada" .dnd), .deliver false true 0, .operate true (.read "ada"),
    .incident true (.configure {}), .operate true (.read "ada")]

/-- The node that is switched off does not even refuse an identifier that fails the check, and
without the four operations that it performs then the rows are the same in the end. -/
theorem disabled_operations_leave_no_trace_of_toggledRun :
    (Record.checkUser "").isOk = false ∧
      (∀ outside : Outside,
        ((Operation.change "" .activity).run outside).run
            { clock := 5000, settings := { enabled := false } } =
          (.ok (.record (.offlineDefault "")),
            { clock := 5000, settings := { enabled := false } })) ∧
      (pair.busySteps (fun _ => .calm) toggledRun).length + 4 = toggledRun.length ∧
      (toggledRun.foldl (Network.step fun _ => .calm) pair).store =
        ((pair.busySteps (fun _ => .calm) toggledRun).foldl
          (Network.step fun _ => .calm) pair).store := by
  obtain ⟨hidle, -, hmatches⟩ :=
    disabled_operations_leave_no_trace (fun _ => .calm) pair toggledRun
  exact ⟨by decide, fun outside => hidle outside _ _ rfl, by decide +kernel, hmatches.store⟩

end Network

end PresenceTracker
