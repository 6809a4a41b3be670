import PresenceTracker.Proofs.Engine.Running
import PresenceTracker.Proofs.Record.Choice

/-!
# What a user chose stays

A node whose cache is in step with the store holds a state that a user chose. Signals about
the user, reads, purges, whatever is done to other users, and whatever happens to the cache
leave that choice alone, in the cache and in the store, and nothing about the user is let
out, whichever calls fail: a node that cannot read its cache decides from the row, which
tells of the same choice. A store that fails to read a row must not report that there is
none, for a node then takes the user for one whom nobody has recorded.
-/

namespace PresenceTracker

/-- An operation makes no choice for a user: as far as it is about the user it is a signal, a
read or a purge, and no sweep. -/
def Operation.Infers (user : String) : Operation → Prop
  | change other transition => other = user → transition.isInferred = true
  | remove other => other ≠ user
  | expire => False
  | read _ | readOrDefault _ | readMany _ | setLastActivity _ _ | clearCaches => True

/-- Nothing that happens makes a choice for a user. -/
def Happening.Infers (user : String) : Happening → Prop
  | operation asked => asked.Infers user
  | incident _ => True

namespace Holding

/-- What is held of a user tells of a choice, and nothing about the user was let out since a
moment. -/
structure Binds (choice : Record) (start held : Holding) : Prop where
  /-- The row tells of the choice. -/
  row : ∃ row, held.row = some row ∧ row.SameChoice choice
  /-- What the cache shows tells of the choice. -/
  cached : ∀ record, held.cached = some record → record.SameChoice choice
  /-- Nothing was shown. -/
  shown : held.shown = start.shown
  /-- Nothing was announced. -/
  announced : held.announced = start.announced

namespace Binds

variable {outside : Outside} {user : String} {choice : Record} {start held later : Holding}

theorem fades (h : Binds choice start held) (hfades : held.Fades outside user later) :
    Binds choice start later where
  row := hfades.row ▸ h.row
  cached _ hcached := h.cached _ (hfades.of_cached hcached)
  shown := hfades.shown.trans h.shown
  announced := hfades.announced.trans h.announced

/-- Loading the user gives a record of the choice. -/
theorem gives (htruthful : outside.Truthful) (h : Binds choice start held) {current : Current}
    (hgives : held.Gives outside user current) :
    current.persisted = true ∧ current.record.SameChoice choice := by
  obtain ⟨row, hrow, hsame⟩ := h.row
  cases hgives with
  | cached hcached => exact ⟨rfl, h.cached _ hcached⟩
  | stored _ hstored =>
    rw [hrow] at hstored
    cases hstored
    exact ⟨rfl, hsame⟩
  | missing _ hnone =>
    rw [hrow] at hnone
    cases hnone htruthful

/-- A record of the choice in the place of the current one is no choice, and is not let
out. -/
theorem takes (h : Binds choice start held) {current : Current} {next : Record}
    (hcurrent : current.record.SameChoice choice) (hnext : next.SameChoice choice)
    (htakes : held.Takes outside user current next later) : Binds choice start later := by
  have hinvisible : current.record.differsVisibly next = false :=
    (hcurrent.trans hnext.symm).differsVisibly_eq
  obtain ⟨hstores, hcached, hshown, hannounced⟩ := htakes
  rw [hinvisible, if_neg Bool.false_ne_true, List.append_nil] at hshown hannounced
  refine ⟨?_, fun record hrecord => ?_, hshown.trans h.shown, hannounced.trans h.announced⟩
  · obtain ⟨row, hrow, hsame⟩ := h.row
    unfold Stores at hstores
    split at hstores
    · exact ⟨next, hstores.2, hnext⟩
    · rcases hstores with hkept | htouched
      · exact ⟨row, hkept.trans hrow, hsame⟩
      · rw [hrow] at htouched
        exact ⟨_, htouched, (Record.SameChoice.with_place row _ _).trans hsame⟩
  · rcases hcached with hheld | ⟨hlost, -⟩
    · rw [hheld] at hrecord
      cases hrecord
      exact hnext
    · rw [hlost] at hrecord
      cases hrecord

/-- A signal leaves the choice alone. -/
theorem turns (htruthful : outside.Truthful) (hmanual : choice.manual = true)
    {transition : Transition} (hinferred : transition.isInferred = true) {now timeout : Moment}
    {result : Except Failure Record} (h : Binds choice start held)
    (hturns : held.Turns outside user transition now timeout result later) :
    Binds choice start later := by
  cases hturns with
  | fails hfades => exact h.fades hfades
  | keeps hfades _ _ => exact h.fades hfades
  | takes hfades hgives hdecision htakes =>
    have hloaded := h.fades hfades
    obtain ⟨hpersisted, hcurrent⟩ := hloaded.gives htruthful hgives
    have hsame := Transition.sameChoice_of_apply hinferred hpersisted
      (hcurrent.manual.trans hmanual) hdecision
    exact hloaded.takes hcurrent (hsame.trans hcurrent) htakes

theorem refills (h : Binds choice start held) (hrefills : held.Refills outside user later) :
    Binds choice start later where
  row := hrefills.row ▸ h.row
  cached record hcached := by
    rcases hrefills.cached with hsame | ⟨hlost, -⟩ | ⟨row, hrow, hfilled⟩
    · exact h.cached record (hsame ▸ hcached)
    · rw [hlost] at hcached
      cases hcached
    · obtain ⟨row', hrow', hchoice⟩ := h.row
      rw [hrow] at hrow'
      cases hrow'
      rw [hfilled] at hcached
      cases hcached
      exact hchoice
  shown := hrefills.shown.trans h.shown
  announced := hrefills.announced.trans h.announced

/-- Noting the activity leaves the choice alone. -/
theorem notes (htruthful : outside.Truthful) (h : Binds choice start held) {moment : Moment}
    (hnotes : held.Notes outside user moment later) : Binds choice start later := by
  cases hnotes with
  | ignored hfades => exact h.fades hfades
  | noted hfades hgives hrests hcached =>
    obtain ⟨-, hsame⟩ := (h.fades hfades).gives htruthful hgives
    refine ⟨hrests.row ▸ h.row, fun record hrecord => ?_, hrests.shown.trans h.shown,
      hrests.announced.trans h.announced⟩
    rw [hcached] at hrecord
    cases hrecord
    exact (Record.SameChoice.with_place _ moment _).trans hsame

/-- A cache that loses the user leaves the choice to the row. -/
theorem lost (h : Binds choice start held) : Binds choice start { held with cached := none } :=
  ⟨h.row, fun _ => nofun, h.shown, h.announced⟩

/-- No operation that makes no choice for the user changes the choice. -/
theorem undergoes (htruthful : outside.Truthful) (hmanual : choice.manual = true)
    {operation : Operation} (hinfers : operation.Infers user) {now timeout : Moment}
    (h : Binds choice start held)
    (hundergoes : held.Undergoes outside user now timeout operation later) :
    Binds choice start later := by
  cases hundergoes with
  | untouched hfades => exact h.fades hfades
  | turned hturns => exact h.turns htruthful hmanual (hinfers rfl) hturns
  | refilled _ hrefills => exact h.refills hrefills
  | noted hnotes => exact h.notes htruthful hnotes
  | notedAway hnotes hturns => exact (h.notes htruthful hnotes).turns htruthful hmanual rfl hturns
  | removed => exact absurd rfl hinfers
  | cleared => exact h.lost
  | restored hrestores => cases hinfers

end Binds

end Holding

namespace Site

variable {outside : Outside} {site : Site} {user : String} {choice : Record} {start : Holding}

/-- A node that is in step holds the choice that a user's row tells of. -/
theorem InStep.binds (h : site.InStep) {row : Record} (hrow : site.store[user]? = some row) :
    Holding.Binds row (site.holding user) (site.holding user) := by
  refine ⟨⟨row, hrow, .refl row⟩, fun known hknown => ?_, rfl, rfl⟩
  obtain ⟨row', hrow', hagrees⟩ := h.backed user known hknown
  rw [hrow] at hrow'
  cases hrow'
  exact .of_agrees hagrees

/-- The current record of a user tells of the same choice as the row. -/
theorem InStep.row_of_current (h : site.InStep) {record : Record}
    (hcurrent : site.current? user = some record) :
    ∃ row, site.store[user]? = some row ∧ row.SameChoice record := by
  have hbacked : (site.holding user).Backed := h.backed user
  obtain ⟨row, hrow, hagrees⟩ := hbacked.current_agrees hcurrent
  exact ⟨row, hrow, (Record.SameChoice.of_agrees hagrees).symm⟩

/-- What is held of a user who has a choice gives a current record of that choice. -/
theorem current?_of_binds (h : Holding.Binds choice start (site.holding user)) :
    ∃ current, site.current? user = some current ∧ current.SameChoice choice := by
  obtain ⟨row, hrow, hsame⟩ := h.row
  cases hknown : site.cached? user with
  | none =>
    refine ⟨row, ?_, hsame⟩
    rw [current?, hknown, Option.none_or]
    exact hrow
  | some known =>
    refine ⟨known, ?_, h.cached known hknown⟩
    rw [current?, hknown, Option.some_or]

/-- Nothing that makes no choice for the user changes the choice. -/
theorem InStep.happen_binds (hremoves : outside.RemovesWork) (htruthful : outside.Truthful)
    (hstep : site.InStep) (hmanual : choice.manual = true) {happening : Happening}
    (hinfers : happening.Infers user) (h : Holding.Binds choice start (site.holding user)) :
    Holding.Binds choice start ((site.happen outside happening).holding user) := by
  cases happening with
  | operation operation =>
    have hruns := Operation.run_runs hremoves hstep.filed operation
    exact h.undergoes htruthful hmanual hinfers (hruns.undergoes user)
  | incident incident =>
    rcases incident.holding_befall site user with hsame | ⟨-, hlost⟩
    · exact hsame ▸ h
    · exact hlost ▸ h.lost

/-- A run that makes no choice for the user leaves the choice alone. -/
theorem InStep.after_binds (hremoves : outside.RemovesWork) (htruthful : outside.Truthful)
    (hstep : site.InStep) (hmanual : choice.manual = true) {happenings : List Happening}
    (hinfers : ∀ happening ∈ happenings, happening.Infers user)
    (h : Holding.Binds choice start (site.holding user)) :
    Holding.Binds choice start ((site.after outside happenings).holding user) := by
  induction happenings generalizing site with
  | nil => exact h
  | cons happening rest ih =>
    have hfirst := hinfers happening List.mem_cons_self
    have hnext := hstep.happen_binds hremoves htruthful hmanual hfirst h
    exact ih (hstep.happen hremoves happening)
      (fun other hmem => hinfers other (List.mem_cons_of_mem happening hmem)) hnext

/-- What a user chose stays: in a run that makes no choice for the user, whichever calls fail
but removals from the cache, the current record and the row of the user go on telling of the
choice, and nothing about the user is let out, provided that the store does not report a
failure to read a row as a missing row. -/
theorem choice_sticks (hremoves : outside.RemovesWork) (htruthful : outside.Truthful)
    (hstep : site.InStep) {record : Record} (hcurrent : site.current? user = some record)
    (hmanual : record.manual = true) {happenings : List Happening}
    (hinfers : ∀ happening ∈ happenings, happening.Infers user) :
    (∃ current, (site.after outside happenings).current? user = some current ∧
        current.SameChoice record) ∧
      (∃ row, (site.after outside happenings).store[user]? = some row ∧ row.SameChoice record) ∧
      ((site.after outside happenings).holding user).shown = (site.holding user).shown ∧
      ((site.after outside happenings).holding user).announced =
        (site.holding user).announced := by
  obtain ⟨row, hrow, hchoice⟩ := hstep.row_of_current hcurrent
  have hbinds := hstep.after_binds hremoves htruthful (hchoice.manual.trans hmanual) hinfers
    (hstep.binds hrow)
  obtain ⟨current, hknown, hcurrent⟩ := current?_of_binds hbinds
  obtain ⟨last, hlast, hsame⟩ := hbinds.row
  exact ⟨⟨current, hknown, hcurrent.trans hchoice⟩, ⟨last, hlast, hsame.trans hchoice⟩,
    hbinds.shown, hbinds.announced⟩

/-- A node with an empty cache and a user who does not want to be disturbed. -/
def undisturbed : Site where
  clock := 5000
  store := (∅ : Store).insert "ada" ⟨"ada", .dnd, true, 10, none, some .away, some 9000⟩

theorem undisturbed_inStep : undisturbed.InStep :=
  inStep_of_empty (Store.keyed_empty.insert rfl) rfl

/-- Signals of all kinds, a read and a purge, while time passes and an entry vanishes. -/
def signals : List Happening :=
  [.operation (.read "ada"), .operation (.change "ada" .activity), .incident (.setClock 7000),
    .operation (.change "ada" (.openChannel (some "general"))), .incident (.vanish "ada"),
    .operation (.change "ada" (.online false)), .operation (.setLastActivity "ada" 20),
    .operation (.change "bob" .dnd), .incident (.setClock 12000),
    .operation (.change "ada" (.offline false)), .operation .clearCaches,
    .operation (.change "ada" (.away false)), .operation (.change "ada" .activity)]

/-- The cache refuses every third look-up, and the store its calls from the thirtieth on. -/
def unsteady : Outside where
  storeFault count _ := if count < 30 then none else some (.refused .timedOut)
  cacheFault
    | count, .get _ => if count % 3 = 0 then some .timedOut else none
    | _, _ => none
  vanishes _ _ := false

/-- After many signals the row shows the channel that was opened, and the choice that was
made. -/
theorem choice_sticks_after_signals :
    ∃ row, (undisturbed.after unsteady signals).store["ada"]? = some row ∧
      row.channel = some "general" ∧ row.status = .dnd ∧ row.restoreTo = some .away ∧
      row.deadline = some 9000 := by
  have hremoves : unsteady.RemovesWork := fun _ _ => rfl
  have htruthful : unsteady.Truthful := by
    intro count user failure hfault
    simp only [unsteady] at hfault
    split at hfault <;> cases hfault
    rfl
  have hcurrent : undisturbed.current? "ada" =
      some ⟨"ada", .dnd, true, 10, none, some .away, some 9000⟩ := by decide +kernel
  have hinfers : ∀ happening ∈ signals, happening.Infers "ada" := by
    simp [signals, Happening.Infers, Operation.Infers, Transition.isInferred]
  obtain ⟨-, ⟨row, hrow, hsame⟩, -, -⟩ :=
    choice_sticks hremoves htruthful undisturbed_inStep hcurrent rfl hinfers
  refine ⟨row, hrow, ?_, hsame.status, hsame.restoreTo, hsame.deadline⟩
  have hchannel : (undisturbed.after unsteady signals).store["ada"]?.map Record.channel =
      some (some "general") := by decide +kernel
  rw [hrow] at hchannel
  exact Option.some.inj hchannel

/-- The store fails to read rows, and reports that there are none. -/
def untruthful : Outside where
  storeFault
    | _, .get user => some (.refused (.noStatus user))
    | _, _ => none
  cacheFault _ _ := none
  vanishes _ _ := false

/-- If the store may report a failure to read a row as a missing row, what a user chose does
not stay: a signal then brings the user online. -/
theorem choice_lost_to_untruthful_store :
    ¬∀ (outside : Outside) (site : Site) (user : String) (record : Record)
      (happenings : List Happening), outside.RemovesWork → site.InStep →
      site.current? user = some record → record.manual = true →
      (∀ happening ∈ happenings, happening.Infers user) →
      ∃ row, (site.after outside happenings).store[user]? = some row ∧ row.SameChoice record := by
  intro hclaim
  have hinfers : ∀ happening ∈ [Happening.operation (.change "ada" (.online false))],
      happening.Infers "ada" := by
    simp [Happening.Infers, Operation.Infers, Transition.isInferred]
  obtain ⟨row, hrow, hsame⟩ := hclaim untruthful undisturbed "ada" _ _ (fun _ _ => rfl)
    undisturbed_inStep rfl rfl hinfers
  have honline : (undisturbed.after untruthful
      [.operation (.change "ada" (.online false))]).store["ada"]?.map Record.status =
        some .online := by decide +kernel
  rw [hrow] at honline
  have hstatus := Option.some.inj honline
  rw [hsame.status] at hstatus
  cases hstatus

end Site

end PresenceTracker
