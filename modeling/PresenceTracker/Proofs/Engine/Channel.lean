import PresenceTracker.Proofs.Engine.Running

/-!
# The open channel across changes of state

A user's channel is open in one state, and another state begins without it: every operation
that gives a user another state leaves no channel open, in the row as in the cache. Two kinds
of operation are apart. Opening a channel sets it, whatever state that brings; and a sweep
restores the state before a do-not-disturb without looking at the channel, so that a channel
opened during the do-not-disturb stays open.
-/

namespace PresenceTracker

/-- The channel that an operation leaves open where it gives a user another state: none,
unless a deadline has passed. -/
def Operation.leavesOpen (operation : Operation) (before : Option Record) : Option String :=
  match operation with
  | expire => before.bind Record.channel
  | _ => none

/-- Moving a record to a state forgets the channel, unless the record is in that state. -/
theorem Record.channel_moveTo (record : Record) (status : Status) (manual : Bool) :
    (record.moveTo status manual).channel = none ∨
      (record.moveTo status manual).channel = record.channel ∧ status = record.status := by
  by_cases hsame : record.status = status
  · exact .inr ⟨if_pos hsame, hsame.symm⟩
  · exact .inl (if_neg hsame)

/-- What a transition applies has no channel open, or the one that was open in the same state;
only the opening of a channel is apart. -/
theorem Transition.channel_of_apply {transition : Transition} {current : Current}
    {now timeout : Moment} {next : Record} (hother : ∀ channel, transition ≠ .openChannel channel)
    (happly : transition.decision current now timeout = .ok (.apply next)) :
    next.channel = none ∨
      next.channel = current.record.channel ∧ next.status = current.record.status := by
  cases transition with
  | online manual =>
    simp only [decision, setOnline] at happly
    split at happly <;> cases happly
    exact current.record.channel_moveTo .online false
  | activity =>
    simp only [decision, recordActivity, setOnline] at happly
    split at happly
    · cases happly
      exact .inr ⟨rfl, rfl⟩
    · split at happly <;> cases happly
      exact current.record.channel_moveTo .online false
  | openChannel channel => exact absurd rfl (hother channel)
  | offline manual =>
    simp only [decision, setOffline] at happly
    split at happly <;> cases happly
    exact .inl rfl
  | away manual =>
    simp only [decision, setAway] at happly
    split at happly
    · cases happly
    · split at happly <;> cases happly
      exact .inl rfl
  | dndUntil deadline =>
    simp only [decision, setDndUntil] at happly
    split at happly <;> cases happly
    exact current.record.channel_moveTo .dnd true
  | dnd =>
    cases happly
    exact current.record.channel_moveTo .dnd true
  | outOfOffice =>
    cases happly
    exact current.record.channel_moveTo .outOfOffice true
  | reset =>
    cases happly
    exact .inl rfl

namespace Holding

variable {outside : Outside} {user : String} {held later : Holding} {left : Option String}

/-- Every record that is held of the user has a certain channel open. -/
def Shows (left : Option String) (held : Holding) : Prop :=
  ∀ record, held.cached = some record ∨ held.row = some record → record.channel = left

/-- A user whose state is another one than before, or is new, has a certain channel open. -/
def Closes (left : Option String) (held later : Holding) : Prop :=
  ∀ after, later.current? = some after →
    (∃ before, held.current? = some before ∧ before.status = after.status) ∨ later.Shows left

/-- The node's view of the user does not change of itself: what the cache shows agrees with the
row, or no call fails and the user's entry stays. -/
def Steady (outside : Outside) (user : String) (held : Holding) : Prop :=
  held.Backed ∨ outside.Faultless ∧ outside.Spares user

namespace Steady

theorem fades (h : held.Steady outside user) (hfades : held.Fades outside user later) :
    later.Steady outside user :=
  h.imp_left fun hbacked => hbacked.fades hfades

theorem notes (h : held.Steady outside user) {moment : Moment}
    (hnotes : held.Notes outside user moment later) : later.Steady outside user :=
  h.imp_left fun hbacked => hbacked.notes hnotes

/-- Losing an entry changes at most the activity that the node sees. -/
theorem current_of_fades (h : held.Steady outside user) (hfades : held.Fades outside user later)
    {after : Record} (hafter : later.current? = some after) :
    ∃ before, held.current? = some before ∧ before.AgreesWith after := by
  rcases h with hbacked | ⟨-, hspares⟩
  · obtain ⟨row, hrow, hagrees⟩ := (hbacked.fades hfades).current_agrees hafter
    obtain ⟨before, hbefore, hseen⟩ := hbacked.sees (hfades.row.symm.trans hrow)
    exact ⟨before, hbefore, hseen.trans hagrees.symm⟩
  · rw [hfades.eq_of_spares hspares] at hafter
    exact ⟨after, hafter, .refl after⟩

/-- What is loaded of a known user is what the node sees, but for the activity. -/
theorem current_of_gives (h : held.Steady outside user) {current : Current}
    (hgives : held.Gives outside user current) (hpersisted : current.persisted = true) :
    ∃ before, held.current? = some before ∧ before.AgreesWith current.record := by
  rcases h with hbacked | ⟨hfaultless, -⟩
  · obtain ⟨row, hrow, hagrees⟩ := hgives.agrees hbacked hpersisted
    obtain ⟨before, hbefore, hseen⟩ := hbacked.sees hrow
    exact ⟨before, hbefore, hseen.trans hagrees.symm⟩
  · cases hgives with
    | cached hcached =>
      exact ⟨_, by rw [current?, hcached, Option.some_or], .refl _⟩
    | stored hmiss hstored =>
      exact ⟨_, by rw [current?, hmiss hfaultless.cache, Option.none_or, hstored], .refl _⟩
    | missing _ _ => cases hpersisted

/-- Noting the activity of a user changes nothing but the activity that the node sees. -/
theorem current_of_notes (h : held.Steady outside user) {moment : Moment}
    (hnotes : held.Notes outside user moment later) {after : Record}
    (hafter : later.current? = some after) :
    ∃ before, held.current? = some before ∧ before.AgreesWith after := by
  cases hnotes with
  | ignored hfades => exact h.current_of_fades hfades hafter
  | noted hfades hgives _ hcached =>
    rw [current?, hcached, Option.some_or] at hafter
    cases hafter
    obtain ⟨known, hknown, hagrees⟩ := (h.fades hfades).current_of_gives hgives rfl
    obtain ⟨before, hbefore, hseen⟩ := h.current_of_fades hfades hknown
    exact ⟨before, hbefore, (hseen.trans hagrees).trans (.symm (.withActivity _ moment))⟩

/-- What the node sees after a record was taken is that record, but for the activity. -/
theorem agrees_of_takes (h : held.Steady outside user) {current : Current} {next after : Record}
    (hgives : held.Gives outside user current) (hnext : next.userId = current.record.userId)
    (htakes : held.Takes outside user current next later) (hafter : later.current? = some after) :
    after.AgreesWith next := by
  rcases htakes.cached with hcached | ⟨hlost, hunspared⟩
  · rw [current?, hcached, Option.some_or] at hafter
    cases hafter
    exact .refl next
  · rcases h with hbacked | ⟨-, hspares⟩
    · obtain ⟨row, hrow, hagrees⟩ := htakes.agrees hnext (hgives.agrees hbacked)
      rw [current?, hlost, Option.none_or, hrow] at hafter
      cases hafter
      exact hagrees.symm
    · exact absurd hspares hunspared

end Steady

/-- The default record of a user has no channel open. -/
theorem Gives.channel_of_missing {current : Current} (h : held.Gives outside user current)
    (hmissing : current.persisted = false) : current.record.channel = none := by
  cases h with
  | cached _ => cases hmissing
  | stored _ _ => cases hmissing
  | missing _ _ => rfl

/-- A record of another state takes a full write, so that all that is held shows it. -/
theorem Takes.shows {current : Current} {next : Record} {channel : Option String}
    (htakes : held.Takes outside user current next later)
    (hfull : current.needsFullSave next = true) (hchannel : next.channel = channel) :
    later.Shows channel := by
  have hstores := htakes.row
  rw [Stores, if_pos hfull] at hstores
  rintro record (hcached | hrow)
  · rcases htakes.cached with hheld | ⟨hlost, -⟩
    · obtain rfl : next = record := Option.some.inj (hheld.symm.trans hcached)
      exact hchannel
    · rw [hlost] at hcached
      cases hcached
  · obtain rfl : next = record := Option.some.inj (hstores.2.symm.trans hrow)
    exact hchannel

/-- A state that is kept, whatever becomes of the activity, closes nothing. -/
theorem Closes.of_agrees (h : ∀ after, later.current? = some after →
    ∃ before, held.current? = some before ∧ before.AgreesWith after) : held.Closes left later := by
  intro after hafter
  obtain ⟨before, hbefore, hagrees⟩ := h after hafter
  exact .inl ⟨before, hbefore, hagrees.status_eq⟩

/-- What closes a channel does so for a node that saw the same before, but for the activity. -/
theorem Closes.after {noted : Holding} (h : noted.Closes left later)
    (hsame : ∀ record, noted.current? = some record →
      ∃ before, held.current? = some before ∧ before.AgreesWith record) :
    held.Closes left later := by
  intro after hafter
  refine (h after hafter).imp_left fun ⟨record, hrecord, hstatus⟩ => ?_
  obtain ⟨before, hbefore, hagrees⟩ := hsame record hrecord
  exact ⟨before, hbefore, hagrees.status_eq.trans hstatus⟩

namespace Steady

/-- A transition other than the opening of a channel gives another state without a channel. -/
theorem closes_turns (h : held.Steady outside user) {transition : Transition}
    {now timeout : Moment} {result : Except Failure Record}
    (hother : ∀ channel, transition ≠ .openChannel channel)
    (hturns : held.Turns outside user transition now timeout result later) :
    held.Closes none later := by
  cases hturns with
  | fails hfades => exact .of_agrees fun _ => h.current_of_fades hfades
  | keeps hfades _ _ => exact .of_agrees fun _ => h.current_of_fades hfades
  | @takes current next loaded _ hfades hgives hdecision htakes =>
    have hloaded := h.fades hfades
    suffices hcloses : loaded.Closes none later from
      hcloses.after fun _ => h.current_of_fades hfades
    intro after hafter
    have hafter' := hloaded.agrees_of_takes hgives (Transition.userId_of_apply hdecision) htakes
      hafter
    by_cases hkept : ∃ before, loaded.current? = some before ∧ before.status = after.status
    · exact .inl hkept
    · have hchanged : current.persisted = true → current.record.status ≠ next.status := by
        intro hpersisted hsame
        obtain ⟨before, hbefore, hagrees⟩ := hloaded.current_of_gives hgives hpersisted
        exact hkept ⟨before, hbefore,
          hagrees.status_eq.trans (hsame.trans hafter'.status_eq.symm)⟩
      have hfull : current.needsFullSave next = true := by
        cases hpersisted : current.persisted with
        | false => simp [Current.needsFullSave, hpersisted]
        | true => simp [Current.needsFullSave, hchanged hpersisted]
      refine .inr (htakes.shows hfull ?_)
      rcases Transition.channel_of_apply hother hdecision with hclosed | ⟨hopen, hstatus⟩
      · exact hclosed
      · cases hpersisted : current.persisted with
        | false => exact hopen.trans (hgives.channel_of_missing hpersisted)
        | true => exact absurd hstatus.symm (hchanged hpersisted)

/-- A sweep that restores a user leaves the channel of the row open. -/
theorem closes_restores (h : held.Steady outside user) {now : Moment}
    (hrestores : held.Restores outside user now later) :
    held.Closes (held.row.bind Record.channel) later := by
  by_cases hpassed : ∃ row, held.row = some row ∧ row.isExpired now = true
  · obtain ⟨row, hrow, hexpired⟩ := hpassed
    rw [hrow]
    cases hrestores.turned row hrow hexpired with
    | @superseded known _ hcached hnewer hfades =>
      rcases h with hbacked | ⟨-, hspares⟩
      · rw [hbacked.isExpired_of_row hrow hexpired hcached] at hnewer
        cases hnewer
      · rw [hfades.eq_of_spares hspares]
        refine .of_agrees fun after hafter => ⟨after, ?_, .refl after⟩
        rw [current?, hcached, Option.some_or] at hafter ⊢
        exact hafter
    | spread _ _ hturned hcached _ _ =>
      refine fun _ _ => .inr ?_
      rintro record (hheld | hstored)
      · rcases hcached with hcached | ⟨hlost, -⟩
        · obtain rfl : row.restored = record := Option.some.inj (hcached.symm.trans hheld)
          rfl
        · rw [hlost] at hheld
          cases hheld
      · obtain rfl : row.restored = record := Option.some.inj (hturned.symm.trans hstored)
        rfl
  · have hkept := hrestores.kept fun row hrow =>
      Bool.eq_false_iff.mpr fun hexpired => hpassed ⟨row, hrow, hexpired⟩
    exact .of_agrees fun _ => h.current_of_fades hkept

/-- An operation that gives a user another state leaves open what it is said to leave open;
the opening of a channel is apart. -/
theorem closes (h : held.Steady outside user) {operation : Operation} {now timeout : Moment}
    (hacts : operation.onlyObserves = false)
    (hother : ∀ channel, operation ≠ .change user (.openChannel channel))
    (hundergoes : held.Undergoes outside user now timeout operation later) :
    held.Closes (operation.leavesOpen held.row) later := by
  cases hundergoes with
  | untouched hfades => exact .of_agrees fun _ => h.current_of_fades hfades
  | turned hturns =>
    exact h.closes_turns (fun channel hsame => hother channel (hsame ▸ rfl)) hturns
  | refilled honly _ =>
    rw [honly] at hacts
    cases hacts
  | noted hnotes => exact .of_agrees fun _ => h.current_of_notes hnotes
  | notedAway hnotes hturns =>
    have haway : ∀ channel, Transition.away false ≠ .openChannel channel := by
      intro channel hsame
      cases hsame
    exact ((h.notes hnotes).closes_turns haway hturns).after fun _ => h.current_of_notes hnotes
  | removed =>
    intro after hafter
    cases hafter
  | cleared => cases hacts
  | restored hrestores => exact h.closes_restores hrestores

end Steady

end Holding

namespace Site

variable {outside : Outside} {site : Site} {user : String}

/-- An operation other than the opening of a channel that gives a user another state leaves no
channel open, in the row as in the cache; only a sweep leaves open the channel of the row. This
holds of a node in step with the store whichever calls fail but removals from the cache, and of
any other node where no call fails and the user's entry does not vanish. -/
theorem changed_state_closes_channel (hfiled : site.Filed) (hremoves : outside.RemovesWork)
    (hsteady : site.InStep ∨ outside.Faultless ∧ outside.Spares user) {operation : Operation}
    (hacts : operation.onlyObserves = false)
    (hother : ∀ channel, operation ≠ .change user (.openChannel channel)) {after : Record}
    (hafter : (site.happen outside (.operation operation)).current? user = some after)
    (hchanged : ∀ before, site.current? user = some before → before.status ≠ after.status) :
    after.channel = operation.leavesOpen site.store[user]? ∧
      (∀ row, (site.happen outside (.operation operation)).store[user]? = some row →
        row.channel = operation.leavesOpen site.store[user]?) ∧
      ∀ known, (site.happen outside (.operation operation)).cached? user = some known →
        known.channel = operation.leavesOpen site.store[user]? := by
  have hheld : (site.holding user).Steady outside user :=
    hsteady.imp_left fun hstep => hstep.backed user
  have hruns : Ensures (operation.run outside) site _ :=
    Operation.run_runs hremoves hfiled operation
  have hcloses := hheld.closes hacts hother (Site.Runs.undergoes hruns user)
  have hshows := (hcloses after hafter).resolve_left fun ⟨before, hbefore, hsame⟩ =>
    hchanged before hbefore hsame
  refine ⟨?_, fun row hrow => hshows row (.inr hrow),
    fun known hknown => hshows known (.inl hknown)⟩
  rcases Option.or_eq_some_iff.mp hafter with hcached | ⟨-, hrow⟩
  · exact hshows after (.inl hcached)
  · exact hshows after (.inr hrow)

/-- A user comes online, opens a channel, does not want to be disturbed for a while, opens
another channel, and the while passes. -/
def visits : List Happening :=
  [.operation (.change "ada" (.online true)),
    .operation (.change "ada" (.openChannel (some "town"))),
    .operation (.change "ada" (.dndUntil 9000)),
    .operation (.change "ada" (.openChannel (some "hall"))), .incident (.setClock 9000)]

/-- A user who is out of office has left the channel, though the cache refused to hold the
channel before. -/
theorem closes_channel_out_of_office :
    ∃ row, ((blank.after refusing visits).happen refusing
        (.operation (.change "ada" .outOfOffice))).store["ada"]? = some row ∧
      row.status = .outOfOffice ∧ row.channel = none := by
  have hremoves : refusing.RemovesWork := fun _ _ => rfl
  have hstep : (blank.after refusing visits).InStep := blank_inStep.after hremoves visits
  have hbefore : (blank.after refusing visits).current? "ada" =
      some ⟨"ada", .dnd, true, 5000, some "hall", some .online, some 9000⟩ := by decide +kernel
  have hafter : ((blank.after refusing visits).happen refusing
      (.operation (.change "ada" .outOfOffice))).current? "ada" =
        some ⟨"ada", .outOfOffice, true, 5000, none, none, none⟩ := by decide +kernel
  have hrow : ((blank.after refusing visits).happen refusing
      (.operation (.change "ada" .outOfOffice))).store["ada"]? =
        some ⟨"ada", .outOfOffice, true, 5000, none, none, none⟩ := by decide +kernel
  have hother : ∀ channel, Operation.change "ada" .outOfOffice ≠
      .change "ada" (.openChannel channel) := by
    intro channel hsame
    cases hsame
  have hchanged : ∀ before, (blank.after refusing visits).current? "ada" = some before →
      before.status ≠ .outOfOffice := by
    intro before hcurrent
    rw [hbefore] at hcurrent
    cases hcurrent
    decide
  obtain ⟨-, hclosed, -⟩ := changed_state_closes_channel hstep.filed hremoves (.inl hstep) rfl
    hother hafter hchanged
  exact ⟨_, hrow, rfl, hclosed _ hrow⟩

/-- A user who is restored by a sweep still has the channel open that was opened during the
do-not-disturb, so not every other state begins without a channel. -/
theorem swept_channel_stays_open :
    ¬∀ (site : Site) (operation : Operation) (user : String) (after : Record), site.InStep →
      operation.onlyObserves = false →
      (∀ channel, operation ≠ .change user (.openChannel channel)) →
      (site.happen .calm (.operation operation)).current? user = some after →
      (∀ before, site.current? user = some before → before.status ≠ after.status) →
      after.channel = none := by
  intro hclaim
  have hbefore : (blank.after .calm visits).current? "ada" =
      some ⟨"ada", .dnd, true, 5000, some "hall", some .online, some 9000⟩ := by decide +kernel
  have hafter : ((blank.after .calm visits).happen .calm (.operation .expire)).current? "ada" =
      some ⟨"ada", .online, false, 5000, some "hall", none, none⟩ := by decide +kernel
  have hstep : (blank.after .calm visits).InStep :=
    blank_inStep.after (fun _ _ => rfl) visits
  have hchanged : ∀ before, (blank.after .calm visits).current? "ada" = some before →
      before.status ≠ .online := by
    intro before hcurrent
    rw [hbefore] at hcurrent
    cases hcurrent
    decide
  cases hclaim _ .expire "ada" _ hstep rfl (fun _ => nofun) hafter hchanged

end Site

end PresenceTracker
