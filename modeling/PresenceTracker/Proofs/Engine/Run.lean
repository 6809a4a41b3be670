import PresenceTracker.Proofs.Engine.Sweep

/-!
# Runs of one node

Operations run on a node one after the other. In between its clock and its settings may
change, and entries of its cache may be lost or spoiled. Whichever calls fail, as long as
removals from the cache work the cache shows only what the store backs: what a node reads
from its cache is what it would read from the store, but for the last activity.
-/

namespace PresenceTracker

/-- What happens to a node between operations. -/
inductive Incident where
  /-- The clock is read anew. -/
  | setClock (now : Moment)
  /-- The settings are replaced. -/
  | configure (settings : TrackingSettings)
  /-- The cache loses an entry. -/
  | vanish (user : String)
  /-- An entry of the cache turns into a frame that does not decode. -/
  | spoil (user : String)
      (frame : {frame : Bytes // (FrameCodec.record.decode frame).toOption = none})

/-- The node after an incident. -/
def Incident.befall (site : Site) : Incident → Site
  | setClock now => { site with clock := now }
  | configure settings => { site with settings }
  | vanish user => site.drop user
  | spoil user frame => { site with cache := site.cache.insert user frame.val }

/-- What happens to a node during a run. -/
inductive Happening where
  /-- The node runs an operation. -/
  | operation (operation : Operation)
  /-- Something happens to the node between operations. -/
  | incident (incident : Incident)

namespace Site

/-- The node after something has happened to it. -/
def happen (outside : Outside) (site : Site) : Happening → Site
  | .operation operation => ((operation.run outside).run site).2
  | .incident incident => incident.befall site

/-- The node after a run. -/
def after (outside : Outside) (site : Site) (happenings : List Happening) : Site :=
  happenings.foldl (happen outside) site

/-- A site with an empty cache shows nothing that the store would have to back. -/
theorem inStep_of_empty {site : Site} (hkeyed : site.store.Keyed) (hempty : site.cache = ∅) :
    site.InStep :=
  ⟨hkeyed, fun user => cached?_empty hempty user ▸ Store.backs_none _ _⟩

/-- A node with an empty store and an empty cache. -/
def blank : Site where
  clock := 5000

theorem blank_inStep : blank.InStep := inStep_of_empty Store.keyed_empty rfl

end Site

/-- A cache shows nothing of a frame that does not decode. -/
theorem Incident.cached?_spoil (site : Site) (spoiled : String)
    (frame : {frame : Bytes // (FrameCodec.record.decode frame).toOption = none})
    (user : String) :
    (befall site (.spoil spoiled frame)).cached? user =
      if spoiled = user then none else site.cached? user := by
  rw [befall, Site.cached?, Table.get?_insert]
  split
  · exact frame.property
  · rfl

/-- An incident leaves the store alone and puts nothing into the cache. -/
theorem Incident.befall_refills (site : Site) (incident : Incident) :
    site.Refills (incident.befall site) := by
  have hrests : site.Rests site := .refl site
  cases incident with
  | setClock now => exact .of_rests { hrests with }
  | configure settings => exact .of_rests { hrests with }
  | vanish user =>
    refine ⟨rfl, rfl, fun other record hcached => .inl ?_, rfl⟩
    rw [befall, Site.cached?_drop] at hcached
    split at hcached
    · cases hcached
    · exact hcached
  | spoil user frame =>
    refine ⟨rfl, rfl, fun other record hcached => .inl ?_, rfl⟩
    rw [cached?_spoil] at hcached
    split at hcached
    · cases hcached
    · exact hcached

variable {outside : Outside} {start site : Site}

/-- Every operation leaves a node coherent. -/
theorem Operation.run_coherent (hremoves : outside.RemovesWork) (h : start.Coherent [] [] site)
    (operation : Operation) :
    Ensures (operation.run outside) site fun _ later => start.Coherent [] [] later := by
  cases operation with
  | change user transition =>
    exact (Engine.change_coherent hremoves h user transition).bind fun _ later hlater =>
      ensures_pure hlater
  | read user =>
    exact (Engine.read_refills h.keyed user).bind fun _ later hlater =>
      ensures_pure (h.refills hlater)
  | readOrDefault user =>
    exact (Engine.readOrDefault_refills h.keyed user).bind fun _ later hlater =>
      ensures_pure (h.refills hlater)
  | readMany users =>
    exact (Engine.readMany_refills h.keyed users).bind fun _ later hlater =>
      ensures_pure (h.refills hlater)
  | setLastActivity user moment =>
    exact (Engine.setLastActivity_coherent hremoves h user moment).bind fun _ later hlater =>
      ensures_pure hlater
  | remove user =>
    exact (Engine.remove_coherent hremoves h user).bind fun _ later hlater =>
      ensures_pure hlater.1
  | clearCaches =>
    exact (Engine.clearCaches_coherent h).bind fun _ later hlater => ensures_pure hlater
  | expire =>
    exact (Engine.expire_coherent hremoves h).bind fun _ later hlater => ensures_pure hlater.1

namespace Site

/-- Whatever happens to a node, it stays in step with the store. -/
theorem InStep.happen (hremoves : outside.RemovesWork) (h : site.InStep) (happening : Happening) :
    (site.happen outside happening).InStep := by
  cases happening with
  | operation operation =>
    have hcoherent := Operation.run_coherent hremoves h.coherent operation
    exact Coherent.inStep hcoherent
  | incident incident => exact (h.coherent.refills (incident.befall_refills site)).inStep

/-- A node stays in step with the store during a run. -/
theorem InStep.after (hremoves : outside.RemovesWork) (h : site.InStep)
    (happenings : List Happening) : (site.after outside happenings).InStep := by
  induction happenings generalizing site with
  | nil => exact h
  | cons happening rest ih => exact ih (h.happen hremoves happening)

/-- After any run from an empty cache, whichever calls fail but removals from the cache, a
record that the cache holds differs from the user's row in the last activity at most. -/
theorem cached_agrees_with_row (outside : Outside) (hremoves : outside.RemovesWork) (site : Site)
    (hkeyed : site.store.Keyed) (hempty : site.cache = ∅) (happenings : List Happening)
    (user : String) (record : Record)
    (hcached : (site.after outside happenings).cached? user = some record) :
    ∃ row, (site.after outside happenings).store[user]? = some row ∧ record.AgreesWith row := by
  have hafter := (inStep_of_empty hkeyed hempty).after hremoves happenings
  exact hafter.backed user record hcached

/-- A node with an empty cache and a user whose do-not-disturb has passed. -/
def overdue : Site where
  clock := 5000
  store := (∅ : Store).insert "ada" ⟨"ada", .dnd, true, 10, none, some .away, some 4000⟩

/-- A run in which the user is read, restored, and active twice in a short time. -/
def busyRun : List Happening :=
  [.operation (.read "ada"), .operation .expire, .incident (.setClock 9000),
    .operation (.change "ada" .activity), .incident (.setClock 9500),
    .operation (.change "ada" .activity)]

/-- The cache refuses its first two writes, and the store refuses its first read. -/
def refusing : Outside where
  storeFault count _ := if count = 1 then some (.refused (.noStatus "ada")) else none
  cacheFault
    | count, .put _ => if count < 8 then some (.noStatus "ada") else none
    | _, _ => none
  vanishes _ _ := false

/-- After a run with failures a cache holds a record whose last activity the row lacks. -/
theorem cached_agrees_with_row_after_busyRun :
    ∃ record row, (overdue.after refusing busyRun).cached? "ada" = some record ∧
      (overdue.after refusing busyRun).store["ada"]? = some row ∧ record ≠ row ∧
        record.AgreesWith row := by
  have hremoves : refusing.RemovesWork := fun _ _ => rfl
  have hkeyed : overdue.store.Keyed := by
    intro user row hrow
    rw [overdue, Table.get?_insert] at hrow
    split at hrow
    · next hsame => cases hrow; exact hsame
    · exact Store.keyed_empty user row hrow
  have hcached : (overdue.after refusing busyRun).cached? "ada" =
      some ⟨"ada", .online, false, 9500, none, none, none⟩ := by decide +kernel
  obtain ⟨row, hrow, hagrees⟩ :=
    cached_agrees_with_row refusing hremoves overdue hkeyed rfl busyRun "ada" _ hcached
  refine ⟨_, row, hcached, hrow, ?_, hagrees⟩
  intro hsame
  subst hsame
  revert hrow
  decide +kernel

end Site

end PresenceTracker
