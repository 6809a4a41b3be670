import PresenceTracker.Proofs.Engine.Sticky

/-!
# The life of a do-not-disturb with a deadline

Setting a deadline captures the state that follows it, and a new deadline hands it on. While
the deadline lies ahead, signals about the user, reads, whatever is done to other users,
sweeps and losses of the cache leave the do-not-disturb as it is. The first sweep at or after
the deadline in force restores the user: the captured state is in the store, in the cache and
in the one event that is let out, and no later sweep finds the user again.
-/

namespace PresenceTracker

/-- A do-not-disturb with a deadline and a state that follows it. -/
structure Record.TimedDnd (target : Status) (deadline : Moment) (record : Record) : Prop where
  /-- The user does not want to be disturbed. -/
  status : record.status = .dnd
  /-- The state was chosen. -/
  manual : record.manual = true
  /-- The state that follows. -/
  restoreTo : record.restoreTo = some target
  /-- The deadline. -/
  deadline : record.deadline = some deadline

namespace Record.TimedDnd

variable {target : Status} {deadline : Moment} {record other : Record}

theorem of_sameChoice (h : record.TimedDnd target deadline) (hsame : other.SameChoice record) :
    other.TimedDnd target deadline :=
  ⟨hsame.status.trans h.status, hsame.manual.trans h.manual, hsame.restoreTo.trans h.restoreTo,
    hsame.deadline.trans h.deadline⟩

/-- What follows a new deadline is what was to follow the old one. -/
theorem restoreTarget_eq (h : record.TimedDnd target deadline) :
    Transition.restoreTarget record = target := by
  rw [Transition.restoreTarget, if_pos h.status, h.restoreTo, Option.getD_some]

/-- The do-not-disturb has passed once the deadline is not ahead any more. -/
theorem isExpired_eq (h : record.TimedDnd target deadline) (now : Moment) :
    record.isExpired now = decide (deadline ≤ now) := by
  simp [isExpired, h.status, h.manual, h.deadline]

end Record.TimedDnd

namespace Transition

/-- Records of the same choice capture the same state. -/
theorem restoreTarget_of_sameChoice {record other : Record} (h : record.SameChoice other) :
    restoreTarget record = restoreTarget other := by
  rw [restoreTarget, restoreTarget, h.status, h.restoreTo]

/-- Setting a deadline never keeps the record as it is. -/
theorem dndUntil_ne_keep (deadline now timeout : Moment) (current : Current) :
    (dndUntil deadline).decision current now timeout ≠ .ok .keep := by
  simp only [decision, setDndUntil]
  split <;> simp

/-- Setting a deadline captures the state that follows it. -/
theorem timedDnd_of_apply {deadline now timeout : Moment} {current : Current} {next : Record}
    (happly : (dndUntil deadline).decision current now timeout = .ok (.apply next)) :
    next.TimedDnd (restoreTarget current.record) deadline := by
  simp only [decision, setDndUntil] at happly
  split at happly
  · cases happly
  · cases happly
    exact ⟨rfl, rfl, rfl, rfl⟩

end Transition

namespace Holding

variable {outside : Outside} {user : String} {held later : Holding}

/-- The record of a user as a node sees it, or the default record. -/
def known (held : Holding) (user : String) : Record :=
  (held.cached.or held.row).getD (.offlineDefault user)

/-- Where the cache agrees with the store, loading a user gives what the node sees, but for the
last activity. -/
theorem Gives.agrees_known (htruthful : outside.Truthful) (hbacked : held.Backed)
    {current : Current} {loaded : Holding} (hfades : held.Fades outside user loaded)
    (hgives : loaded.Gives outside user current) :
    current.record.AgreesWith (held.known user) := by
  have hbacked' := hbacked.fades hfades
  rw [known]
  cases hcached : held.cached with
  | none =>
    rw [Option.none_or]
    cases hgives with
    | cached hknown => rw [hfades.lost hcached] at hknown; cases hknown
    | stored _ hrow => rw [← hfades.row, hrow]; exact .refl _
    | missing _ hnone => rw [← hfades.row, hnone htruthful]; exact .refl _
  | some record =>
    obtain ⟨row, hrow, hagrees⟩ := hbacked record hcached
    rw [← hfades.row] at hrow
    rw [Option.some_or, Option.getD_some]
    cases hgives with
    | cached hknown =>
      rw [hfades.of_cached hknown] at hcached
      cases hcached
      exact .refl _
    | stored _ hstored =>
      rw [hrow] at hstored
      cases hstored
      exact hagrees.symm
    | missing _ hnone =>
      rw [hnone htruthful] at hrow
      cases hrow

/-- Where the cache agrees with the store, a transition that succeeds decides from what the
node sees, and unless it keeps that, the row agrees with the record that it gives. -/
theorem Turns.row_of_ok (htruthful : outside.Truthful) (hbacked : held.Backed)
    {transition : Transition} {now timeout : Moment} {record : Record}
    (hturns : held.Turns outside user transition now timeout (.ok record) later) :
    ∃ current, current.record.AgreesWith (held.known user) ∧
      (transition.decision current now timeout = .ok .keep ∨
        transition.decision current now timeout = .ok (.apply record) ∧
          ∃ row, later.row = some row ∧ record.AgreesWith row) := by
  cases hturns with
  | keeps hfades hgives hkeeps =>
    refine ⟨_, hgives.agrees_known htruthful hbacked hfades, ?_⟩
    rcases hkeeps with hkeep | ⟨hpersisted, hrepeat⟩
    · exact .inl hkeep
    · exact .inr ⟨hrepeat, hgives.agrees (hbacked.fades hfades) hpersisted⟩
  | takes hfades hgives hdecision htakes =>
    refine ⟨_, hgives.agrees_known htruthful hbacked hfades, .inr ⟨hdecision, ?_⟩⟩
    exact htakes.agrees (Transition.userId_of_apply hdecision)
      (hgives.agrees (hbacked.fades hfades))

end Holding

namespace Site

variable {outside : Outside} {first site : Site} {user : String} {target : Status}
  {deadline : Moment}

/-- A node that tracks users accepts an operation. -/
def Accepts (outside : Outside) (site : Site) (operation : Operation) : Prop :=
  site.settings.enabled = true ∧ ((operation.run outside).run site).1.isOk = true

instance (outside : Outside) (site : Site) (operation : Operation) :
    Decidable (site.Accepts outside operation) := inferInstanceAs (Decidable (_ ∧ _))

/-- Since a deadline was set for a user at the node `first`, another one may have been set, and
no sweep has come at or after the deadline in force. -/
inductive Waits (outside : Outside) (user : String) (first : Site) : Moment → Site → Prop where
  /-- A deadline is set. -/
  | sets {deadline : Moment}
      (haccepts : first.Accepts outside (.change user (.dndUntil deadline))) :
      Waits outside user first deadline
        (first.happen outside (.operation (.change user (.dndUntil deadline))))
  /-- A new deadline is set. -/
  | resets {before deadline : Moment} {site : Site} (hwaits : Waits outside user first before site)
      (haccepts : site.Accepts outside (.change user (.dndUntil deadline))) :
      Waits outside user first deadline
        (site.happen outside (.operation (.change user (.dndUntil deadline))))
  /-- Something happens that makes no choice for the user. -/
  | happens {deadline : Moment} {site : Site} {happening : Happening}
      (hwaits : Waits outside user first deadline site) (hinfers : happening.Infers user) :
      Waits outside user first deadline (site.happen outside happening)
  /-- A sweep comes before the deadline in force. -/
  | sweeps {deadline : Moment} {site : Site} (hwaits : Waits outside user first deadline site)
      (hahead : site.settings.enabled = true → site.clock < deadline) :
      Waits outside user first deadline (site.happen outside (.operation .expire))

/-- What a node sees of a user who has a choice tells of it. -/
theorem known_sameChoice {choice : Record} {start : Holding}
    (h : Holding.Binds choice start (site.holding user)) :
    ((site.holding user).known user).SameChoice choice := by
  obtain ⟨current, hcurrent, hsame⟩ := current?_of_binds h
  have hknown : (site.holding user).known user = current :=
    congrArg (fun known => known.getD (.offlineDefault user)) hcurrent
  exact hknown ▸ hsame

/-- Setting a deadline puts a do-not-disturb into the user's row that captures the state that
the node saw. -/
theorem InStep.accepts_dndUntil (hfaultless : outside.Faultless) (hstep : site.InStep)
    (haccepts : site.Accepts outside (.change user (.dndUntil deadline))) :
    ∃ row, (site.happen outside (.operation (.change user (.dndUntil deadline)))).store[user]? =
        some row ∧
      row.TimedDnd (Transition.restoreTarget ((site.holding user).known user)) deadline := by
  obtain ⟨henabled, haccepted⟩ := haccepts
  obtain ⟨record, hrecord⟩ : ∃ record,
      ((Engine.change outside user (.dndUntil deadline)).run site).1 = .ok record := by
    have hmapped : (((Engine.change outside user (.dndUntil deadline)).run site).1.map
        Answer.record).isOk = true := haccepted
    cases hresult : ((Engine.change outside user (.dndUntil deadline)).run site).1 with
    | error failure => rw [hresult] at hmapped; cases hmapped
    | ok record => exact ⟨record, rfl⟩
  obtain ⟨-, hturns, -⟩ := Engine.change_turns hfaultless.cache.removesWork hstep.filed user
    (.dndUntil deadline)
  have hturned := hturns henabled
  rw [hrecord] at hturned
  have hbacked : (site.holding user).Backed := hstep.backed user
  obtain ⟨current, hknown, hkeep | ⟨happly, row, hrow, hagrees⟩⟩ :=
    hturned.row_of_ok hfaultless.truthful hbacked
  · exact absurd hkeep (Transition.dndUntil_ne_keep deadline _ _ current)
  · refine ⟨row, hrow, Record.TimedDnd.of_sameChoice ?_ (.of_agrees hagrees.symm)⟩
    rw [← Transition.restoreTarget_of_sameChoice (.of_agrees hknown)]
    exact Transition.timedDnd_of_apply happly

/-- A sweep before the deadline gives no record of the user and leaves what is held of the user
alone. -/
theorem InStep.expire_ahead (hremoves : outside.RemovesWork) (hstep : site.InStep) {row : Record}
    (hrow : site.store[user]? = some row) (htimed : row.TimedDnd target deadline)
    (hahead : site.settings.enabled = true → site.clock < deadline) :
    Ensures (Engine.expire outside) site fun result later =>
      (site.settings.enabled = true → ∀ records, result = .ok records →
        user ∉ records.map Record.userId) ∧
      (site.holding user).Fades outside user (later.holding user) := by
  have hpending : site.settings.enabled = true → row.isExpired site.clock = false := by
    intro henabled
    rw [htimed.isExpired_eq]
    exact decide_eq_false (Int64.not_le.mpr (hahead henabled))
  refine (Engine.expire_restores hremoves hstep.filed).mono fun result later hcall => ?_
  obtain ⟨-, -, -, ⟨henabled, rfl, hrestores⟩ | ⟨hfails, hfades⟩⟩ := hcall
  · refine ⟨fun _ => of_eq_ok fun hmem => ?_, (hrestores user).kept fun row' hrow' => ?_⟩
    · obtain ⟨row', hrow', hpassed⟩ :=
        (Store.mem_users_expired_iff hstep.keyed _ _).mp (mem_users_turned_iff.mp hmem)
      obtain rfl : row = row' := Option.some.inj (hrow.symm.trans hrow')
      rw [hpending henabled] at hpassed
      cases hpassed
    · obtain rfl : row = row' := Option.some.inj (hrow.symm.trans hrow')
      exact hpending henabled
  · refine ⟨fun henabled records hok => ?_, hfades user⟩
    obtain ⟨failure, hfailed⟩ := hfails henabled
    cases hfailed.symm.trans hok

/-- While a deadline lies ahead the node stays in step, and the user's row is the
do-not-disturb that captured the state the node saw when the first deadline was set. -/
theorem Waits.timedDnd (hfaultless : outside.Faultless) (hstep : first.InStep)
    (hwaits : Waits outside user first deadline site) :
    site.InStep ∧ ∃ row, site.store[user]? = some row ∧
      row.TimedDnd (Transition.restoreTarget ((first.holding user).known user)) deadline := by
  have hremoves := hfaultless.cache.removesWork
  induction hwaits with
  | sets haccepts => exact ⟨hstep.happen hremoves _, hstep.accepts_dndUntil hfaultless haccepts⟩
  | resets _ haccepts ih =>
    obtain ⟨hbefore, row, hrow, htimed⟩ := ih
    obtain ⟨next, hnext, htimed'⟩ := hbefore.accepts_dndUntil hfaultless haccepts
    have hknown := known_sameChoice (hbefore.binds hrow)
    rw [(htimed.of_sameChoice hknown).restoreTarget_eq] at htimed'
    exact ⟨hbefore.happen hremoves _, next, hnext, htimed'⟩
  | happens _ hinfers ih =>
    obtain ⟨hbefore, row, hrow, htimed⟩ := ih
    have hbinds := hbefore.happen_binds hremoves hfaultless.truthful htimed.manual hinfers
      (hbefore.binds hrow)
    obtain ⟨next, hnext, hsame⟩ := hbinds.row
    exact ⟨hbefore.happen hremoves _, next, hnext, htimed.of_sameChoice hsame⟩
  | sweeps _ hahead ih =>
    obtain ⟨hbefore, row, hrow, htimed⟩ := ih
    obtain ⟨-, hfades⟩ := hbefore.expire_ahead hremoves hrow htimed hahead
    exact ⟨hbefore.happen hremoves _, row, hfades.row.trans hrow, htimed⟩

/-- A sweep at or after the deadline restores the user: the record after the deadline is the
one record of the user that the sweep gives, the user's row, the current record, and in the
one event that is let out. -/
theorem InStep.expire_due (hfaultless : outside.Faultless) (hstep : site.InStep) {row : Record}
    (hrow : site.store[user]? = some row) (htimed : row.TimedDnd target deadline)
    (henabled : site.settings.enabled = true) (hdue : deadline ≤ site.clock) :
    Ensures (Engine.expire outside) site fun result later =>
      (∃ records, result = .ok records ∧
        records.filter (fun record => record.userId = user) = [row.restored]) ∧
      later.store[user]? = some row.restored ∧
      later.current? user = some row.restored ∧
      (later.holding user).shown = (site.holding user).shown ++ [row.restored.presence] ∧
      (later.holding user).announced =
        (site.holding user).announced ++ [row.restored.presence] := by
  have hremoves := hfaultless.cache.removesWork
  have hpassed : row.isExpired site.clock = true := by
    rw [htimed.isExpired_eq]
    exact decide_eq_true hdue
  have hrestores := Engine.expire_restores hremoves hstep.filed
  have hsucceeds := Engine.expire_succeeds hfaultless.store site
  refine (hrestores.and hsucceeds).mono fun result later hcall => ?_
  obtain ⟨⟨-, -, -, ⟨-, rfl, hrestores⟩ | ⟨hfails, -⟩⟩, restored, hok, -⟩ := hcall
  · refine ⟨⟨_, rfl, ?_⟩, ?_⟩
    · have huser : row.restored.userId = user := hstep.keyed user row hrow
      have hmem : row.restored ∈ site.store.expired site.clock :=
        (Store.mem_expired_iff _ _ _).mpr ⟨user, row, hrow, hpassed, rfl⟩
      have hfilter := (turned_perm outside site site.clock).filter
        fun record => record.userId = row.restored.userId
      rw [Store.filter_expired hstep.keyed hmem] at hfilter
      rw [← huser]
      exact List.perm_singleton.mp hfilter
    · have hspreads := (hrestores user).turned row hrow hpassed
      cases hspreads with
      | superseded hcached hnewer hfades =>
        have hbacked : (site.holding user).Backed := hstep.backed user
        rw [hbacked.isExpired_of_row hrow hpassed hcached] at hnewer
        cases hnewer
      | spread hfades hstale hkept hcached hshown hannounced =>
        have hlater : later.store[user]? = some row.restored := hkept
        refine ⟨hlater, ?_, hshown, hannounced⟩
        rcases hcached with hheld | ⟨hlost, -⟩
        · have hknown : later.cached? user = some row.restored := hheld
          rw [current?, hknown, Option.some_or]
        · have hknown : later.cached? user = none := hlost
          rw [current?, hknown, Option.none_or, hlater]
  · obtain ⟨failure, hfailed⟩ := hfails henabled
    cases hok.symm.trans hfailed

/-- A do-not-disturb with a deadline lives until the first sweep at or after the deadline in
force. Up to then every current record and every row of the user is the do-not-disturb with
the captured state, and no sweep gives a record of the user or lets anything out about the
user. That sweep restores the user to the state that the node saw when the deadline was first
set (for a do-not-disturb, what was to follow it, or else online): the user's one record among
those that it gives, the row, the current record and the one event about the user all tell
so. And no later sweep finds the user in the store it leaves. -/
theorem Waits.life_cycle (hfaultless : outside.Faultless) (hstep : first.InStep)
    (hwaits : Waits outside user first deadline site) {known : Record}
    (hknown : (first.current? user).getD (.offlineDefault user) = known)
    (htarget : (if known.status = .dnd then known.restoreTo.getD .online else known.status) =
      target) :
    (∃ current, site.current? user = some current ∧ current.TimedDnd target deadline) ∧
      (∃ row, site.store[user]? = some row ∧ row.TimedDnd target deadline) ∧
      (site.clock < deadline → Ensures (Engine.expire outside) site fun result later =>
        (∀ records, result = .ok records → user ∉ records.map Record.userId) ∧
        later.store[user]? = site.store[user]? ∧
        (later.holding user).shown = (site.holding user).shown ∧
        (later.holding user).announced = (site.holding user).announced) ∧
      (site.settings.enabled = true → deadline ≤ site.clock →
        Ensures (Engine.expire outside) site fun result later => ∃ restored : Record,
          restored.userId = user ∧ restored.status = target ∧ restored.manual = false ∧
          restored.restoreTo = none ∧ restored.deadline = none ∧
          (∃ records, result = .ok records ∧
            records.filter (fun record => record.userId = user) = [restored]) ∧
          later.store[user]? = some restored ∧
          later.current? user = some restored ∧
          (later.holding user).shown = (site.holding user).shown ++ [restored.presence] ∧
          (later.holding user).announced =
            (site.holding user).announced ++ [restored.presence] ∧
          ∀ now, user ∉ (later.store.expired now).map Record.userId) := by
  have hremoves := hfaultless.cache.removesWork
  obtain ⟨hinStep, row, hrow, htimed⟩ := hwaits.timedDnd hfaultless hstep
  have hcaptured : Transition.restoreTarget ((first.holding user).known user) = target := by
    rw [← htarget, ← hknown]
    rfl
  rw [hcaptured] at htimed
  obtain ⟨current, hcurrent, hsame⟩ := current?_of_binds (hinStep.binds hrow)
  refine ⟨⟨current, hcurrent, htimed.of_sameChoice hsame⟩, ⟨row, hrow, htimed⟩, fun hahead => ?_,
    fun henabled hdue => ?_⟩
  · have hsweep := hinStep.expire_ahead hremoves hrow htimed fun _ => hahead
    have hsucceeds := Engine.expire_succeeds hfaultless.store site
    refine (hsweep.and hsucceeds).mono fun result later hcall => ?_
    obtain ⟨⟨habsent, hfades⟩, restored, rfl, hrestored⟩ := hcall
    refine ⟨of_eq_ok ?_, hfades.row, hfades.shown, hfades.announced⟩
    split at hrestored
    · next henabled => exact habsent henabled _ rfl
    · rw [hrestored]
      exact List.not_mem_nil
  · have hsweep := hinStep.expire_due hfaultless hrow htimed henabled hdue
    have hrestores := Engine.expire_restores hremoves hinStep.filed
    refine (hsweep.and hrestores).mono fun result later hcall => ?_
    obtain ⟨⟨hgiven, hstored, hseen, hshown, hannounced⟩, hfiled, -⟩ := hcall
    have hstatus : row.restored.status = target := by
      simp [Record.restored, htimed.restoreTo]
    refine ⟨row.restored, hinStep.keyed user row hrow, hstatus, rfl, rfl, rfl, hgiven, hstored,
      hseen, hshown, hannounced, fun now hmem => ?_⟩
    obtain ⟨last, hlast, hpassed⟩ :=
      (Store.mem_users_expired_iff (hfiled hinStep.filed).keyed now user).mp hmem
    rw [hstored] at hlast
    cases hlast
    simp [Record.isExpired, Record.restored] at hpassed

/-- A deadline is set anew for a user who has one already, a channel is opened, a sweep comes too
early, the cache loses the user, and a later deadline is set that passes. -/
def handingOn : List Happening :=
  [.operation (.change "ada" (.dndUntil 8000)), .incident (.setClock 7000),
    .operation (.change "ada" (.openChannel (some "general"))), .operation .expire,
    .incident (.vanish "ada"), .operation (.change "ada" (.dndUntil 9500)),
    .operation (.read "ada"), .incident (.setClock 9500)]

/-- Nothing fails, but every entry vanishes before every third call. -/
def fleeting : Outside where
  storeFault _ _ := none
  cacheFault _ _ := none
  vanishes count _ := count % 3 = 0

theorem handingOn_waits : Waits fleeting "ada" undisturbed 9500
    (undisturbed.after fleeting handingOn) := by
  have hset : undisturbed.Accepts fleeting (.change "ada" (.dndUntil 8000)) := by decide +kernel
  have hreset : (undisturbed.after fleeting (handingOn.take 5)).Accepts fleeting
      (.change "ada" (.dndUntil 9500)) := by decide +kernel
  have hclock : (Happening.incident (.setClock 7000)).Infers "ada" := trivial
  have hchannel :
      (Happening.operation (.change "ada" (.openChannel (some "general")))).Infers "ada" :=
    fun _ => rfl
  have hlost : (Happening.incident (.vanish "ada")).Infers "ada" := trivial
  have hread : (Happening.operation (.read "ada")).Infers "ada" := trivial
  have hlate : (Happening.incident (.setClock 9500)).Infers "ada" := trivial
  have hopened : Waits fleeting "ada" undisturbed 8000
      (undisturbed.after fleeting (handingOn.take 3)) :=
    .happens (.happens (.sets hset) hclock) hchannel
  have hswept : Waits fleeting "ada" undisturbed 8000
      (undisturbed.after fleeting (handingOn.take 5)) :=
    .happens (.sweeps hopened fun _ => by decide +kernel) hlost
  exact .happens (.happens (.resets hswept hreset) hread) hlate

/-- After the deadline in force the user is away in the open channel, as nobody chose it. -/
theorem life_cycle_of_handingOn :
    ∃ restored, ((undisturbed.after fleeting handingOn).happen fleeting
        (.operation .expire)).current? "ada" = some restored ∧
      restored.status = .away ∧ restored.manual = false ∧ restored.channel = some "general" := by
  have hknown : (undisturbed.current? "ada").getD (.offlineDefault "ada") =
      ⟨"ada", .dnd, true, 10, none, some .away, some 9000⟩ := by decide +kernel
  have hfaultless : fleeting.Faultless := ⟨fun _ _ => rfl, fun _ _ => rfl⟩
  obtain ⟨-, -, -, hdue⟩ :=
    handingOn_waits.life_cycle hfaultless undisturbed_inStep hknown rfl
  obtain ⟨restored, -, hstatus, hmanual, -, -, -, -, hcurrent, -⟩ :=
    hdue (by decide +kernel) (by decide +kernel)
  refine ⟨restored, hcurrent, hstatus, hmanual, ?_⟩
  have hchannel : (((undisturbed.after fleeting handingOn).happen fleeting
      (.operation .expire)).current? "ada").map Record.channel = some (some "general") := by
    decide +kernel
  have hseen : ((undisturbed.after fleeting handingOn).happen fleeting
      (.operation .expire)).current? "ada" = some restored := hcurrent
  rw [hseen] at hchannel
  exact Option.some.inj hchannel

end Site

end PresenceTracker
