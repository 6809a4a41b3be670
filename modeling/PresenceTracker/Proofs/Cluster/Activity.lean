import PresenceTracker.Proofs.Cluster.Inheritance

/-!
# Activity brings a user online

A sign of life and a user coming online are two transitions with rules of their own: activity
leaves an online record as it is but for the time, and coming online writes every field that
belongs to a state. For a record that nobody chose they come to the same as long as nothing is left
of a deadline, which is so for every record that the nodes of a network make. So for a user whose
state was not chosen the two operations cannot be told apart: they give the same and leave the same
network, whichever calls fail.
-/

namespace PresenceTracker

/-- What is left of a deadline goes with a chosen state only. -/
theorem Record.Shaped.untimed {record : Record} (h : record.Shaped)
    (hinferred : record.manual = false) : record.deadline = none ∧ record.restoreTo = none := by
  have hdeadline : record.deadline = none := by
    cases hsome : record.deadline with
    | none => rfl
    | some deadline =>
      have hchosen := (h.timed deadline hsome).2.1
      rw [hinferred] at hchosen
      cases hchosen
  refine ⟨hdeadline, ?_⟩
  have hpaired := h.paired
  rw [hdeadline] at hpaired
  exact Option.not_isSome_iff_eq_none.mp (by rw [← hpaired]; exact Bool.false_ne_true)

/-- For a record of the shape that was not chosen, activity is the same as coming online. -/
theorem Transition.recordActivity_eq_setOnline {record : Record} (h : record.Shaped)
    (hinferred : record.manual = false) (now : Moment) :
    recordActivity record now = setOnline record false now := by
  by_cases honline : record.status = .online
  · obtain ⟨hdeadline, hrestore⟩ := h.untimed hinferred
    have hmove : record.moveTo .online false = record := by
      rw [Record.moveTo, if_pos honline, ← honline, ← hinferred, ← hdeadline, ← hrestore]
    simp [recordActivity, setOnline, honline, hinferred, hmove]
  · simp [recordActivity, honline, hinferred]

namespace Site

/-- The record of a user as an operation that begins now finds it: what the node sees at the
first call, or the row if that call fails. -/
def found? (outside : Outside) (site : Site) (user : String) : Option Record :=
  match outside.cacheFault site.calls (.get user) with
  | none => (site.atCall outside).current? user
  | some _ => site.store[user]?

/-- If the look-up works and the entry does not vanish, what is found is what the node sees. -/
theorem found?_eq_current? {outside : Outside} {site : Site} {user : String}
    (hworks : outside.cacheFault site.calls (.get user) = none)
    (hstays : outside.vanishes site.calls user = false) :
    site.found? outside user = site.current? user := by
  have hcache : (site.atCall outside).cached? user = site.cached? user := by
    rw [cached?, cached?, atCall, Table.get?_filter, hstays]
    cases site.cache[user]? <;> rfl
  rw [found?, hworks]
  exact congrArg (Option.or · site.store[user]?) hcache

end Site

namespace Engine

variable {outside : Outside} {site : Site} {user : String}

/-- A look-up gives what is found; if it gives no record, the row is what is found. -/
theorem cacheGet_finds (outside : Outside) (user : String) (site : Site) :
    Ensures (cacheGet outside user) site fun found later => later.store = site.store ∧
      ((∃ record, found = .ok (some record) ∧ site.found? outside user = some record) ∨
        (∀ record, found ≠ .ok (some record)) ∧
          site.found? outside user = site.store[user]?) := by
  refine ⟨rfl, ?_⟩
  simp only [cacheGet, StateT.run, Site.found?]
  cases outside.cacheFault site.calls (.get user) with
  | some failure =>
    refine .inr ⟨fun record hfound => ?_, rfl⟩
    cases hfound
  | none =>
    have hlook := (site.atCall outside).lookUpResult_eq_ok_some_iff user
    cases hcached : (site.atCall outside).cached? user with
    | some record =>
      refine .inl ⟨record, (hlook record).mpr hcached, ?_⟩
      rw [Site.current?, hcached, Option.some_or]
    | none =>
      refine .inr ⟨fun record hfound => ?_, ?_⟩
      · rw [(hlook record).mp hfound] at hcached
        cases hcached
      · rw [Site.current?, hcached, Option.none_or]
        rfl

/-- What is loaded is the record that is found, or the default record of the user. -/
theorem load_finds (outside : Outside) (user : String) (site : Site) :
    Ensures (load outside user) site fun result _ => ∀ current, result = .ok current →
      current = .missing user ∨ site.found? outside user = some current.record := by
  refine (cacheGet_finds outside user site).bind fun found looked hlooked => ?_
  obtain ⟨hstore, ⟨record, rfl, hfound⟩ | ⟨hnone, hfound⟩⟩ := hlooked
  · exact ensures_pure (of_eq_ok (.inr hfound))
  · split
    · next record => exact absurd rfl (hnone record)
    · refine (storeGet_ensures outside user looked).bind fun result _ hread => ?_
      obtain ⟨-, hrow⟩ := hread
      split
      · next record =>
        have hrecord : site.found? outside user = some record := by
          rw [hfound, ← hstore]
          exact hrow record rfl
        exact ensures_pure (of_eq_ok (.inr hrecord))
      · split
        · exact ensures_pure (of_eq_ok (.inl rfl))
        · exact ensures_pure fun _ => nofun
      · exact ensures_pure fun _ => nofun

/-- Two transitions decide alike about everything that may be loaded of a user. -/
def DecideAlike (outside : Outside) (user : String) (first second : Transition) (site : Site) :
    Prop :=
  Ensures (load outside user) site fun result _ => ∀ current, result = .ok current →
    ∀ now timeout, first.decision current now timeout = second.decision current now timeout

variable {first second : Transition}

theorem perform_congr (h : DecideAlike outside user first second site) :
    (perform outside user first).run site = (perform outside user second).run site := by
  refine Ensures.run_bind_congr h fun result loaded hdecide => ?_
  cases result with
  | error fault => rfl
  | ok current => simp only [hdecide current rfl]

/-- Transitions that decide alike of a user whose identifier is good run alike. -/
theorem change_congr
    (h : Record.checkUser user = .ok () → DecideAlike outside user first second site) :
    (change outside user first).run site = (change outside user second).run site := by
  refine (ensures_run get site).run_bind_congr fun _ _ hget => ?_
  cases hget
  split
  · rfl
  · cases huser : Record.checkUser user with
    | error failure => rfl
    | ok _ => simp only [StateT.run_bind, perform_congr (h huser)]

end Engine

namespace Network

variable {ι κ : Type} [DecidableEq ι] [DecidableEq κ]

/-- Whatever the nodes of a network without rows have done, whichever calls fail and whatever
became of the events: for a user of whom a node finds no chosen record, and for one of whom it
finds none at all, recording activity and coming online without a choice are the same operation.
They give the same and leave the same network: rows, caches, slots, what is under way to other
nodes and what clients were shown. -/
theorem activity_is_coming_online {outside : ι → Outside} {start network : Network ι κ}
    (hfresh : start.Fresh) (hstore : start.store = ∅)
    (hreaches : Reaches outside (fun _ _ => True) start network) (worker : ι) (user : String)
    (hinferred : ∀ record, (network.site worker).found? (outside worker) user = some record →
      record.manual = false) :
    network.operate outside worker (.change user .activity) =
      network.operate outside worker (.change user (.online false)) := by
  have hhas : (network.site worker).Has Record.Shaped Record.Shaped :=
    (hreaches.has_of_hereditary Record.Shaped.hereditary hfresh hstore).site worker
  have hchange : (Engine.change (outside worker) user .activity).run (network.site worker) =
      (Engine.change (outside worker) user (.online false)).run (network.site worker) := by
    refine Engine.change_congr fun huser => ?_
    have hload := (Engine.load_has (Record.Shaped.hereditary.lineage _) hhas huser).and
      (Engine.load_finds (outside worker) user (network.site worker))
    refine hload.mono fun result _ hrun current hcurrent now timeout => ?_
    obtain ⟨⟨-, hshaped⟩, hfound⟩ := hrun
    have hmanual : current.record.manual = false := by
      rcases hfound current hcurrent with rfl | hrecord
      · rfl
      · exact hinferred current.record hrecord
    exact congrArg Except.ok
      (Transition.recordActivity_eq_setOnline (hshaped current hcurrent) hmanual now)
  simp only [operate, Operation.run, StateT.run_bind, hchange]

/-- A user sets a deadline, which passes, and the sweep brings the user back online. The other node
has heard of the deadline alone. -/
def restoredRun : List (NetworkStep Bool) :=
  [.operate true (.change "ada" (.online true)), .operate true (.change "ada" (.dndUntil 6000)),
    .incident true (.setClock 7000), .deliver true false 2, .operate true .expire]

/-- The node that ran the sweep finds the user online, with nothing left of the deadline. -/
theorem activity_is_coming_online_after_restoredRun :
    ∃ record, ((restoredRun.foldl (step fun _ => .calm) pair).site true).found? .calm "ada" =
        some record ∧ record.status = .online ∧ record.manual = false ∧
      (restoredRun.foldl (step fun _ => .calm) pair).operate (fun _ => .calm) true
          (.change "ada" .activity) =
        (restoredRun.foldl (step fun _ => .calm) pair).operate (fun _ => .calm) true
          (.change "ada" (.online false)) := by
  have hreaches : Reaches (fun _ => .calm) (fun _ _ => True) pair
      (restoredRun.foldl (step fun _ => .calm) pair) :=
    Reaches.start.foldl (by simp [Obeys, restoredRun])
  have hfound : ((restoredRun.foldl (step fun _ => .calm) pair).site true).found? .calm "ada" =
      some ⟨"ada", .online, false, 5000, none, none, none⟩ := by
    rw [Site.found?_eq_current? rfl rfl]
    decide +kernel
  refine ⟨_, hfound, rfl, rfl, ?_⟩
  refine activity_is_coming_online pair_fresh rfl hreaches true "ada" fun record hrecord => ?_
  cases hfound.symm.trans hrecord
  rfl

end Network

end PresenceTracker
