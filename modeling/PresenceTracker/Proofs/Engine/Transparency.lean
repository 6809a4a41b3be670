import Mathlib.Data.List.Forall2
import Mathlib.Data.List.Nodup
import PresenceTracker.Proofs.Engine.Announcing
import PresenceTracker.Proofs.Engine.Mirroring
import PresenceTracker.Proofs.Engine.Run

/-!
# The cache is transparent

The mirror of a node goes through a run without a cache. The node gives the same answers, shows
the same events and keeps the same rows, but for the last activities. So two runs from the same
node in which the same happens differ in last activities at most, however their caches behave:
entries may vanish, look-ups and writes may fail, and a cache may never work at all.

The store gives the rows of a sweep back in an order of its own, which may be another one in each
run. What the runs answer and show is therefore compared operation by operation, and for a sweep
up to that order. Where it is the same in both runs, all answers and all events are.

Left out are the two operations that look at a last activity and the purge of the caches, which
reports whether the cache works.
-/

namespace PresenceTracker

/-- The answer with all last activities at the epoch. -/
def Answer.timeless : Answer → Answer
  | record given => .record given.timeless
  | records given => .records (given.map Record.timeless)
  | done => .done

/-- To leave out the last activity of an answer is to leave it out of its record. -/
theorem Answer.timeless_record (result : Except Failure Record) :
    (result.map record).map timeless = (result.map Record.timeless).map record := by
  cases result <;> rfl

/-- So it is with an answer of several records. -/
theorem Answer.timeless_records (result : Except Failure (List Record)) :
    (result.map records).map timeless = (result.map (·.map Record.timeless)).map records := by
  cases result <;> rfl

/-- An answer without a record has no last activity to leave out. -/
theorem Answer.timeless_done (result : Except Failure Unit) :
    (result.map fun _ => done).map timeless = result.map fun _ => done := by
  cases result <;> rfl

/-- What an operation of a run gave back and showed, with all last activities at the epoch. -/
structure Report where
  /-- The operation. -/
  operation : Operation
  /-- What it gave back. -/
  answer : Except Failure Answer
  /-- The events that it showed. -/
  shown : List PresenceEvent

namespace Report

/-- The users whom the answer lists, in its order. -/
def users (report : Report) : List String :=
  match report.answer with
  | .ok (.records given) => given.map Record.userId
  | _ => []

/-- The report of a sweep, which shows the turned rows in the order in which it gives them
back. -/
def ofSweep (turned : List Record) : Report :=
  ⟨.expire, .ok (.records turned), turned.map Record.presence⟩

/-- Two reports of an operation are the same, but that those of a sweep may have the turned rows
in different orders. -/
inductive Alike : Report → Report → Prop where
  /-- The reports are the same. -/
  | same (report : Report) : Alike report report
  /-- Both sweeps turned the same rows, of each user one at most. -/
  | swept {turned other : List Record} (hperm : turned.Perm other)
    (hnodup : (turned.map Record.userId).Nodup) : Alike (ofSweep turned) (ofSweep other)

/-- Reports that are alike and list their users in the same order are the same. -/
theorem Alike.eq_of_users {first second : Report} (h : first.Alike second)
    (husers : first.users = second.users) : first = second := by
  cases h with
  | same => rfl
  | swept hperm hnodup =>
    refine congrArg ofSweep (List.ext_getElem hperm.length_eq fun i hi hi' => ?_)
    have huser := List.getElem_of_eq husers (by simpa [users, ofSweep] using hi)
    simp only [users, ofSweep, List.getElem_map] at huser
    exact List.inj_on_of_nodup_map hnodup (List.getElem_mem hi)
      (hperm.mem_iff.mpr (List.getElem_mem hi')) huser

/-- Runs whose reports are alike, with the users in the same order, have the same reports. -/
theorem eq_of_users {reports others : List Report} (h : List.Forall₂ Alike reports others)
    (husers : reports.map users = others.map users) : reports = others := by
  induction h with
  | nil => rfl
  | cons hfirst _ ih =>
    obtain ⟨hhead, htail⟩ := List.cons.inj husers
    rw [hfirst.eq_of_users hhead, ih htail]

end Report

namespace Mirror

/-- What an operation gives back, and the mirror after it, if a sweep gives back the turned rows
as listed. What looks at last activities is not followed. -/
def operate (mirror : Mirror) (turned : List Record) : Operation → Except Failure Answer × Mirror
  | .change user transition =>
    ((mirror.change user transition).1.map .record, (mirror.change user transition).2)
  | .read user => ((mirror.read user).map .record, mirror)
  | .readOrDefault user =>
    (.ok (.record ((mirror.read user).toOption.getD (.offlineDefault user))), mirror)
  | .readMany users => (.ok (.records (mirror.readMany users)), mirror)
  | .remove user => ((mirror.remove user).1.map fun _ => .done, (mirror.remove user).2)
  | .expire => (.ok (.records turned), mirror.expire turned)
  | .setLastActivity _ _ | .clearCaches => (.ok .done, mirror)

/-- The mirror after something has happened to its node. In which order a sweep gives back the
turned rows is seen in its events only. -/
def happen (mirror : Mirror) : Happening → Mirror
  | .operation operation => (mirror.hush.operate [] operation).2
  | .incident (.setClock now) => { mirror with clock := now }
  | .incident (.configure settings) => { mirror with settings }
  | .incident (.vanish _) | .incident (.spoil _ _) => mirror

/-- The report of an operation, if a sweep gives back the turned rows as listed. -/
def report (mirror : Mirror) (turned : List Record) (operation : Operation) : Report where
  operation := operation
  answer := (mirror.hush.operate turned operation).1
  shown := (mirror.hush.operate turned operation).2.shown

/-- The order of a sweep's rows leaves no trace but in the events. -/
theorem hush_operate (mirror : Mirror) (turned : List Record) (operation : Operation) :
    (mirror.hush.operate turned operation).2.hush =
      (mirror.happen (.operation operation)).hush := by
  cases operation <;> rfl

/-- Whichever orders two sweeps give the turned rows back in, their reports are alike. -/
theorem report_alike {mirror : Mirror} (hkeyed : mirror.rows.Keyed) {turned other : List Record}
    (hturned : turned.Perm (mirror.rows.expired mirror.clock))
    (hother : other.Perm (mirror.rows.expired mirror.clock)) (operation : Operation) :
    (mirror.report turned operation).Alike (mirror.report other operation) := by
  cases operation with
  | expire =>
    have hnodup := Store.nodup_expired hkeyed mirror.clock
    exact .swept (hturned.trans hother.symm)
      ((hturned.map Record.userId).nodup_iff.mpr hnodup)
  | _ => exact .same _

end Mirror

namespace Site

/-- The report of an operation on a node. -/
def report (outside : Outside) (site : Site) (operation : Operation) : Report where
  operation := operation
  answer := ((operation.run outside).run site).1.map Answer.timeless
  shown := ((((operation.run outside).run site).2.shown.drop site.shown.length).map
    PresenceEvent.timeless)

/-- The reports of a run, one an operation. -/
def reports (outside : Outside) (site : Site) : List Happening → List Report
  | [] => []
  | .operation operation :: rest => site.report outside operation ::
      (site.happen outside (.operation operation)).reports outside rest
  | .incident incident :: rest => (site.happen outside (.incident incident)).reports outside rest

/-- What a run has shown in the end are the events of its reports, one report after the other. -/
theorem shown_after (outside : Outside) (site : Site) (happenings : List Happening) :
    (site.after outside happenings).shown.map PresenceEvent.timeless =
      site.shown.map PresenceEvent.timeless ++
        (site.reports outside happenings).flatMap Report.shown := by
  induction happenings generalizing site with
  | nil => exact (List.append_nil _).symm
  | cons happening rest ih =>
    have hrest := ih (site.happen outside happening)
    cases happening with
    | incident incident => cases incident <;> exact hrest
    | operation operation =>
      obtain ⟨-, events, -, hshown, -⟩ := Operation.run_frame (echoes_frame outside) operation site
      refine hrest.trans ?_
      rw [reports, List.flatMap_cons, ← List.append_assoc]
      congr 1
      simp only [happen, report]
      rw [hshown, List.drop_left, List.map_append]

/-- The mirror of a node. -/
def mirror (site : Site) : Mirror where
  clock := site.clock
  settings := site.settings
  rows := site.store.timeless
  view user := site.store.timeless[user]?
  shown := site.shown.map PresenceEvent.timeless

end Site

/-- An operation that neither looks at last activities nor reports whether the cache works. -/
def Operation.Plain : Operation → Prop
  | change _ transition => transition ≠ .away false
  | setLastActivity _ _ | clearCaches => False
  | read _ | readOrDefault _ | readMany _ | remove _ | expire => True

/-- Tracking stays enabled, the clock does not go behind the epoch, and operations neither look
at last activities nor report whether the cache works. -/
def Happening.Plain : Happening → Prop
  | operation given => given.Plain
  | incident (.setClock now) => 0 ≤ now
  | incident (.configure settings) => settings.enabled = true
  | incident (.vanish _) | incident (.spoil _ _) => True

instance : DecidablePred Operation.Plain
  | .change _ transition => inferInstanceAs (Decidable (transition ≠ .away false))
  | .setLastActivity _ _ | .clearCaches => inferInstanceAs (Decidable False)
  | .read _ | .readOrDefault _ | .readMany _ | .remove _ | .expire =>
    inferInstanceAs (Decidable True)

instance : DecidablePred Happening.Plain
  | .operation operation => inferInstanceAs (Decidable operation.Plain)
  | .incident (.setClock now) => inferInstanceAs (Decidable (0 ≤ now))
  | .incident (.configure settings) => inferInstanceAs (Decidable (settings.enabled = true))
  | .incident (.vanish _) | .incident (.spoil _ _) => inferInstanceAs (Decidable True)

/-- Tracking is enabled, the clock is not behind the epoch, and the cache shows the rows, if
anything. -/
structure Mirror.Ready (mirror : Mirror) : Prop where
  /-- The cache shows the rows, if anything. -/
  settled : mirror.Settled
  /-- Tracking is enabled. -/
  enabled : mirror.settings.enabled = true
  /-- The clock is not behind the epoch. -/
  clock : 0 ≤ mirror.clock

variable {outside : Outside} {past : List PresenceEvent} {mirror : Mirror} {site : Site}

namespace Mirror.Ready

/-- Without the events of the past a mirror is as ready as with them. -/
theorem hush (h : mirror.Ready) : mirror.hush.Ready := { h with }

/-- A mirror with other rows, which the cache shows if anything, is ready again. -/
theorem settle (h : mirror.Ready) (rows : Store) (events : List PresenceEvent) :
    (mirror.settle rows events).Ready := ⟨settled_settle mirror rows events, h.enabled, h.clock⟩

/-- A mirror stays ready when a record replaces the current one. -/
theorem replace (h : mirror.Ready) (current : Current) (next : Record) :
    (mirror.replace current next).2.Ready := by
  unfold Mirror.replace
  split
  · exact h
  · exact h.settle _ _

/-- A mirror stays ready through a change. -/
theorem change (h : mirror.Ready) (user : String) (transition : Transition) :
    (mirror.change user transition).2.Ready := by
  unfold Mirror.change
  split
  · exact h
  · unfold perform
    split
    · exact h
    · exact h
    · exact h.replace _ _

/-- A mirror stays ready through a removal. -/
theorem remove (h : mirror.Ready) (user : String) : (mirror.remove user).2.Ready := by
  unfold Mirror.remove
  split
  · exact h
  · exact h.settle _ _

/-- Whatever plain happens, the mirror stays ready. -/
theorem happen (h : mirror.Ready) {happening : Happening} (hplain : happening.Plain) :
    (mirror.happen happening).Ready := by
  cases happening with
  | operation operation =>
    cases operation with
    | change user transition => exact h.hush.change user transition
    | remove user => exact h.hush.remove user
    | expire => exact h.hush.settle _ _
    | _ => exact h.hush
  | incident incident =>
    cases incident with
    | setClock now => exact ⟨h.settled, h.enabled, hplain⟩
    | configure settings => exact ⟨h.settled, hplain, h.clock⟩
    | _ => exact h

end Mirror.Ready

/-- A plain operation does what it does to the mirror, if a sweep gives back the turned rows in
some order. -/
theorem Operation.run_mirrors (hbears : outside.Bears) (h : site.Mirrors outside past mirror)
    (hready : mirror.Ready) {operation : Operation} (hplain : operation.Plain) :
    Ensures (operation.run outside) site fun result later => ∃ turned : List Record,
      turned.Perm (mirror.rows.expired mirror.clock) ∧
        result.map Answer.timeless = (mirror.operate turned operation).1 ∧
        later.Mirrors outside past (mirror.operate turned operation).2 := by
  obtain ⟨hsettled, henabled, hclock⟩ := hready
  cases operation with
  | change user transition =>
    have hrun := Engine.change_mirrors hbears h hsettled henabled hclock user hplain
    refine hrun.bind fun result later hcall => ensures_pure ⟨_, .refl _, ?_, hcall.2⟩
    rw [Answer.timeless_record, hcall.1, Mirror.operate]
  | read user =>
    have hrun := Engine.read_mirrors hbears h hsettled henabled user
    refine hrun.bind fun result later hcall => ensures_pure ⟨_, .refl _, ?_, hcall.2⟩
    rw [Answer.timeless_record, hcall.1, Mirror.operate]
  | readOrDefault user =>
    have hrun := Engine.readOrDefault_mirrors hbears h hsettled henabled user
    refine hrun.bind fun record later hcall => ensures_pure ⟨_, .refl _, ?_, hcall.2⟩
    exact congrArg (Except.ok ∘ Answer.record) hcall.1
  | readMany users =>
    have hrun := Engine.readMany_mirrors hbears h hsettled henabled users
    refine hrun.bind fun result later hcall => ensures_pure ⟨_, .refl _, ?_, hcall.2⟩
    rw [Answer.timeless_records, hcall.1]
    rfl
  | remove user =>
    have hrun := Engine.remove_mirrors hbears h hsettled henabled user
    refine hrun.bind fun result later hcall => ensures_pure ⟨_, .refl _, ?_, hcall.2⟩
    rw [Answer.timeless_done, hcall.1, Mirror.operate]
  | expire =>
    have hrun := Engine.expire_mirrors hbears h hsettled henabled
    refine hrun.bind fun result later hcall => ?_
    obtain ⟨turned, hturned, hresult, hlater⟩ := hcall
    refine ensures_pure ⟨turned, hturned, ?_, hlater⟩
    rw [Answer.timeless_records, hresult]
    rfl
  | setLastActivity user moment => cases hplain
  | clearCaches => cases hplain

namespace Site.Mirrors

/-- The mirror may forget its events: they are of the past. -/
theorem hush (h : site.Mirrors outside past mirror) :
    site.Mirrors outside (past ++ mirror.shown) mirror.hush :=
  { h with shown := h.shown.trans (List.append_nil _).symm }

/-- The report of a plain operation is that of the mirror if the sweep has some order, and the
mirror follows. -/
theorem report (hbears : outside.Bears) (h : site.Mirrors outside past mirror.hush)
    (hready : mirror.Ready) {operation : Operation} (hplain : operation.Plain) :
    ∃ turned : List Record, turned.Perm (mirror.rows.expired mirror.clock) ∧
      site.report outside operation = mirror.report turned operation ∧
      ∃ past', (site.happen outside (.operation operation)).Mirrors outside past'
        (mirror.happen (.operation operation)).hush := by
  obtain ⟨turned, hturned, hanswer, hlater⟩ :=
    Operation.run_mirrors hbears h hready.hush hplain
  refine ⟨turned, hturned, ?_, _, mirror.hush_operate turned operation ▸ hlater.hush⟩
  have hlength : site.shown.length = past.length := by
    have hshown := congrArg List.length (h.shown.trans (List.append_nil past))
    rwa [List.length_map] at hshown
  have hshown : (((operation.run outside).run site).2.shown.drop site.shown.length).map
      PresenceEvent.timeless = (mirror.hush.operate turned operation).2.shown := by
    rw [List.map_drop, hlater.shown, hlength, List.drop_left]
  simp only [Site.report, Mirror.report, hanswer, hshown]

/-- Incidents leave the mirror what it is, but for the clock and the settings. -/
theorem befall (h : site.Mirrors outside past mirror.hush) (incident : Incident) :
    (site.happen outside (.incident incident)).Mirrors outside past
      (mirror.happen (.incident incident)).hush := by
  cases incident with
  | setClock now => exact { h with clock := rfl }
  | configure settings => exact { h with settings := rfl }
  | vanish user => exact h.drop user
  | spoil user frame =>
    show (Incident.befall site (.spoil user frame)).Mirrors outside past mirror.hush
    refine h.loses ⟨_, rfl⟩ fun other record hcached => ?_
    rw [Incident.cached?_spoil] at hcached
    split at hcached
    · cases hcached
    · exact hcached

/-- Two runs that begin with one mirror have reports that are alike, and leave the same rows but
for the last activities. -/
theorem reports_alike {first second : Outside} {other : Site} {past' : List PresenceEvent}
    (hfirst : first.Bears) (hsecond : second.Bears) (h : site.Mirrors first past mirror.hush)
    (h' : other.Mirrors second past' mirror.hush) (hready : mirror.Ready)
    (happenings : List Happening) (hplain : ∀ happening ∈ happenings, happening.Plain) :
    List.Forall₂ Report.Alike (site.reports first happenings) (other.reports second happenings) ∧
      (site.after first happenings).store.timeless =
        (other.after second happenings).store.timeless := by
  induction happenings generalizing site other mirror past past' with
  | nil => exact ⟨.nil, h.rows.trans h'.rows.symm⟩
  | cons happening rest ih =>
    have hhead := hplain happening List.mem_cons_self
    have htail : ∀ happening ∈ rest, happening.Plain := fun happening hmem =>
      hplain happening (List.mem_cons_of_mem _ hmem)
    cases happening with
    | incident incident =>
      have hrest := ih (h.befall incident) (h'.befall incident) (hready.happen hhead) htail
      exact hrest
    | operation operation =>
      obtain ⟨turned, hturned, hreport, _, hlater⟩ := h.report hfirst hready hhead
      obtain ⟨turned', hturned', hreport', _, hlater'⟩ := h'.report hsecond hready hhead
      have hrest := ih hlater hlater' (hready.happen hhead) htail
      refine ⟨.cons ?_ hrest.1, hrest.2⟩
      rw [hreport, hreport']
      exact Mirror.report_alike h.rowsKeyed hturned hturned' operation

end Site.Mirrors

namespace Site

/-- A node with an empty cache and valid rows is followed by its mirror. -/
theorem mirrors_mirror (outside : Outside) (hkeyed : site.store.Keyed)
    (hvalid : site.store.Every fun _ row => row.validate = .ok ()) (hempty : site.cache = ∅) :
    site.Mirrors outside (site.shown.map PresenceEvent.timeless) site.mirror.hush where
  clock := rfl
  settings := rfl
  rows := rfl
  keyed := hkeyed
  active user row hrow := Record.lastActivity_of_validate (hvalid user row hrow)
  cached user record hcached := by
    rw [cached?_empty hempty] at hcached
    cases hcached
  shown := (List.append_nil _).symm
  empty _ user := cached?_empty hempty user

/-- Two runs from the same node with an empty cache and valid rows, in which the same happens,
give the same answers, show the same events and leave the same rows, but for the last
activities and for the orders in which the store gives back the rows of sweeps. Where the sweeps
have the same order in both runs, all reports are the same, and so is the whole sequence of
events. In each of the runs no call to the cache works, or entries may vanish and look-ups and
writes may fail, while removals work. -/
theorem cache_transparent (first second : Outside) (hfirst : first.Bears)
    (hsecond : second.Bears) (start : Site) (hkeyed : start.store.Keyed)
    (hvalid : start.store.Every fun _ row => row.validate = .ok ()) (hempty : start.cache = ∅)
    (henabled : start.settings.enabled = true) (hclock : 0 ≤ start.clock)
    (happenings : List Happening) (hplain : ∀ happening ∈ happenings, happening.Plain) :
    List.Forall₂ Report.Alike (start.reports first happenings)
        (start.reports second happenings) ∧
      ((start.reports first happenings).map Report.users =
          (start.reports second happenings).map Report.users →
        start.reports first happenings = start.reports second happenings ∧
          (start.after first happenings).shown.map PresenceEvent.timeless =
            (start.after second happenings).shown.map PresenceEvent.timeless) ∧
      (start.after first happenings).store.timeless =
        (start.after second happenings).store.timeless := by
  have hready : start.mirror.Ready := ⟨fun _ => rfl, henabled, hclock⟩
  obtain ⟨halike, hrows⟩ := Mirrors.reports_alike hfirst hsecond
    (mirrors_mirror first hkeyed hvalid hempty) (mirrors_mirror second hkeyed hvalid hempty)
    hready happenings hplain
  refine ⟨halike, fun husers => ?_, hrows⟩
  have hreports := Report.eq_of_users halike husers
  exact ⟨hreports, by rw [shown_after, shown_after, hreports]⟩

/-- No call to the cache works. -/
def cacheless : Outside where
  storeFault _ _ := none
  cacheFault _ _ := some (.io "no cache")
  vanishes _ _ := false

/-- The cache refuses its first writes and loses an entry now and then, and the store gives back
the last rows first. -/
def forgetful : Outside where
  storeFault _ _ := none
  cacheFault
    | count, .put _ => if count < 4 then some (.io "not yet") else none
    | _, _ => none
  vanishes count _ := count % 5 = 0
  order _ := .backwards

/-- A node with an empty cache and two users whose do-not-disturb has passed. -/
def twoOverdue : Site :=
  overdue.withStore (overdue.store.insert "cyd" ⟨"cyd", .dnd, true, 20, none, none, some 3000⟩)

/-- A run in which two users are restored, one of them is active twice in a short time and then
away, while another one comes and goes. -/
def mixedRun : List Happening :=
  [.operation (.readMany ["ada", "bob"]), .operation .expire, .incident (.setClock 9000),
    .operation (.change "ada" .activity), .incident (.setClock 9500),
    .operation (.change "ada" .activity), .operation (.change "ada" (.away true)),
    .operation (.change "bob" (.online true)), .operation (.read "bob"),
    .operation (.remove "bob"), .operation (.readOrDefault "ada")]

/-- A node without a cache stores another last activity, and its store gives back the rows of the
sweep in another order. It does the same otherwise. -/
theorem cache_transparent_in_mixedRun :
    (twoOverdue.after cacheless mixedRun).store["ada"]? ≠
        (twoOverdue.after forgetful mixedRun).store["ada"]? ∧
      (twoOverdue.reports cacheless mixedRun).map Report.users ≠
        (twoOverdue.reports forgetful mixedRun).map Report.users ∧
      List.Forall₂ Report.Alike (twoOverdue.reports cacheless mixedRun)
        (twoOverdue.reports forgetful mixedRun) ∧
      (twoOverdue.after cacheless mixedRun).store.timeless =
        (twoOverdue.after forgetful mixedRun).store.timeless := by
  have hcacheless : cacheless.Bears := ⟨fun _ _ => rfl, .inl fun _ _ => nofun⟩
  have hforgetful : forgetful.Bears := ⟨fun _ _ => rfl, .inr fun _ _ => rfl⟩
  have hvalid : twoOverdue.store.Every fun _ row => row.validate = .ok () := by
    intro user row hrow
    simp only [twoOverdue, withStore, overdue, Table.get?_insert] at hrow
    repeat' split at hrow
    · cases hrow
      rfl
    · cases hrow
      rfl
    · simp at hrow
  have hkeyed : twoOverdue.store.Keyed := .insert (.insert Store.keyed_empty (by rfl)) (by rfl)
  refine ⟨by decide +kernel, by decide +kernel, ?_⟩
  obtain ⟨halike, -, hrows⟩ := cache_transparent cacheless forgetful hcacheless hforgetful
    twoOverdue hkeyed hvalid rfl rfl (by decide) mixedRun (by decide)
  exact ⟨halike, hrows⟩

end Site

end PresenceTracker
