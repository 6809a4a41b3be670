import PresenceTracker.Proofs.Engine.Running
import PresenceTracker.Proofs.Record.Choice

/-!
# Operations beside a sweep

A sweep turns all rows in one step on the store and then spreads them, one step for each, and
other operations may come in between. A turned row that waits to be spread may find that its
user has changed: then the cache shows a newer record, and the row is let go. That the cache
shows nothing newer is taken to mean that the row still stands, which is so unless the user
was removed, or a channel was opened on what the cache still showed of the passed
do-not-disturb. With these two left out, cache and store agree again once the last row has
been spread. With either of them the sweep caches a record that the store does not back.
-/

namespace PresenceTracker

/-- A sweep that is under way on a node. -/
structure SweepRun where
  /-- The node. -/
  site : Site
  /-- The time of the sweep. -/
  now : Moment
  /-- The turned rows that are still to be spread. -/
  pending : List Record

/-- What can be done to a node while a sweep is under way. -/
inductive SweepStep where
  /-- The next turned row is spread. -/
  | spread
  /-- An operation runs. -/
  | operate (operation : Operation)
  /-- The clock is read anew. -/
  | setClock (clock : Moment)

/-- What waits for a turned row of a sweep at `now`. -/
inductive Holding.OnTheWay (now : Moment) (turned : Record) (held : Holding) : Prop where
  /-- The row stands, and what the cache shows has passed. -/
  | waiting {row : Record} (hrow : held.row = some row) (hagrees : row.AgreesWith turned)
      (hpassed : ∀ known, held.cached = some known → known.isExpired now = true)
  /-- A newer record has been written and cached. -/
  | overtaken {known row : Record} (hcached : held.cached = some known)
      (hnewer : known.isExpired now = false) (hrow : held.row = some row)
      (hagrees : known.AgreesWith row)
  /-- The user was removed. -/
  | gone (hrow : held.row = none) (hcached : held.cached = none)

namespace Holding.OnTheWay

variable {user : String} {now clock timeout : Moment} {turned : Record} {held later : Holding}

/-- A record that is cached, has not passed and agrees with the row has overtaken the sweep. -/
theorem of_newer {record : Record} (hcached : held.cached = some record)
    (hnewer : record.isExpired now = false)
    (hstored : ∃ row, held.row = some row ∧ record.AgreesWith row) :
    held.OnTheWay now turned := by
  obtain ⟨row, hrow, hagrees⟩ := hstored
  exact .overtaken hcached hnewer hrow hagrees

/-- Where the cache works, a record that is loaded has not passed and agrees with the row if
there is one, unless the row still waits to be spread. -/
theorem gives (hturned : turned.isExpired now = false) (h : held.OnTheWay now turned)
    {current : Current} (hgives : held.Gives .calm user current) :
    (current.record.isExpired now = false ∧ (current.persisted = true →
        ∃ row, held.row = some row ∧ current.record.AgreesWith row)) ∨
      (current.persisted = true ∧ held.cached = some current.record ∧
        current.record.isExpired now = true ∧ ∃ row, held.row = some row ∧
          row.AgreesWith turned) := by
  cases h with
  | waiting hrow hagrees hpassed =>
    cases hgives with
    | cached hcached => exact .inr ⟨rfl, hcached, hpassed _ hcached, _, hrow, hagrees⟩
    | stored _ hstored =>
      rw [hrow] at hstored
      cases hstored
      exact .inl ⟨(hagrees.isExpired_eq now).trans hturned, fun _ => ⟨_, hrow, .refl _⟩⟩
    | missing _ hnone =>
      rw [hrow] at hnone
      cases hnone Outside.calm_faultless.truthful
  | overtaken hcached hnewer hrow hagrees =>
    cases hgives with
    | cached hknown =>
      rw [hcached] at hknown
      cases hknown
      exact .inl ⟨hnewer, fun _ => ⟨_, hrow, hagrees⟩⟩
    | stored hmiss _ => rw [hmiss Outside.calm_faultless.cache] at hcached; cases hcached
    | missing hmiss _ => rw [hmiss Outside.calm_faultless.cache] at hcached; cases hcached
  | gone hrow hcached =>
    cases hgives with
    | cached hknown => rw [hcached] at hknown; cases hknown
    | stored _ hstored => rw [hrow] at hstored; cases hstored
    | missing _ _ => exact .inl ⟨rfl, nofun⟩

/-- A transition lets the row wait or overtakes the sweep, unless it opens another channel than
that of the passed do-not-disturb that the cache shows. -/
theorem turns (hturned : turned.isExpired now = false) (hclock : now ≤ clock)
    {transition : Transition}
    (hchannel : ∀ channel, transition = .openChannel channel → ∀ known,
      held.cached = some known → known.isExpired now = true → known.channel = channel)
    {result : Except Failure Record} (h : held.OnTheWay now turned)
    (hturns : held.Turns .calm user transition clock timeout result later) :
    later.OnTheWay now turned := by
  have hspares := Outside.calm_spares user
  cases hturns with
  | fails hfades => exact hfades.eq_of_spares hspares ▸ h
  | keeps hfades _ _ => exact hfades.eq_of_spares hspares ▸ h
  | @takes current next loaded _ hfades hgives hdecision htakes =>
    obtain rfl := hfades.eq_of_spares hspares
    have huser := Transition.userId_of_apply hdecision
    have hcached : later.cached = some next := by
      rcases htakes.cached with hheld | ⟨-, hunspared⟩
      · exact hheld
      · exact absurd hspares hunspared
    rcases h.gives hturned hgives with ⟨hfresh, hstored⟩ |
      ⟨hpersisted, hknown, hpassed, row, hrow, hagrees⟩
    · cases hexpired : next.isExpired now with
      | false => exact .of_newer hcached hexpired (htakes.agrees huser hstored)
      | true =>
        rw [(Transition.isExpired_of_apply hclock hdecision hexpired).1] at hfresh
        cases hfresh
    · have hstores := htakes.row
      unfold Holding.Stores at hstores
      split at hstores
      · next hfull =>
        cases hexpired : next.isExpired now with
        | false => exact .of_newer hcached hexpired ⟨next, hstores.2, .refl next⟩
        | true =>
          obtain ⟨-, channel, rfl, hsame⟩ :=
            Transition.isExpired_of_apply hclock hdecision hexpired
          have hkept : channel = current.record.channel := by
            rcases hsame with hsame | hopened
            · exact hsame
            · exact (hchannel channel hopened _ hknown hpassed).symm
          subst hkept
          simp [Current.needsFullSave, hpersisted] at hfull
      · next hpartial =>
        have hsame := (Current.agreesWith_of_not_needsFullSave huser (by simpa using hpartial)).2
        have hlast : ∀ known, later.cached = some known → known.isExpired now = true := by
          intro known hheld
          rw [hcached] at hheld
          cases hheld
          rw [hsame.isExpired_eq, hpassed]
        rcases hstores with hkept | htouched
        · exact .waiting (hkept.trans hrow) hagrees hlast
        · rw [hrow] at htouched
          exact .waiting htouched ((Record.AgreesWith.withActivity row _).trans hagrees) hlast

/-- A read lets the row wait, or finds the row and caches it. -/
theorem refills (hturned : turned.isExpired now = false) (h : held.OnTheWay now turned)
    (hrefills : held.Refills .calm user later) : later.OnTheWay now turned := by
  rcases hrefills.cached with hsame | ⟨-, hunspared⟩ | ⟨row, hrow, hfilled⟩
  · cases h with
    | waiting hrow hagrees hpassed =>
      exact .waiting (hrefills.row.trans hrow) hagrees fun known hknown =>
        hpassed known (hsame ▸ hknown)
    | overtaken hcached hnewer hrow hagrees =>
      exact .overtaken (hsame.trans hcached) hnewer (hrefills.row.trans hrow) hagrees
    | gone hrow hcached => exact .gone (hrefills.row.trans hrow) (hsame.trans hcached)
  · exact absurd (Outside.calm_spares user) hunspared
  · have hstored := hrefills.row.trans hrow
    refine .overtaken hfilled ?_ hstored (.refl row)
    cases h with
    | waiting hrow' hagrees _ =>
      rw [hrow] at hrow'
      cases hrow'
      exact (hagrees.isExpired_eq now).trans hturned
    | overtaken hcached hnewer hrow' hagrees =>
      rw [hrow] at hrow'
      cases hrow'
      exact (hagrees.isExpired_eq now).symm.trans hnewer
    | gone hrow' _ =>
      rw [hrow] at hrow'
      cases hrow'

/-- Noting the activity lets the row wait or overtakes the sweep. -/
theorem notes (hturned : turned.isExpired now = false) (h : held.OnTheWay now turned)
    {moment : Moment} (hnotes : held.Notes .calm user moment later) :
    later.OnTheWay now turned := by
  have hspares := Outside.calm_spares user
  cases hnotes with
  | ignored hfades => exact hfades.eq_of_spares hspares ▸ h
  | @noted record loaded _ hfades hgives hrests hcached =>
    obtain rfl := hfades.eq_of_spares hspares
    rcases h.gives hturned hgives with ⟨hfresh, hstored⟩ | ⟨-, -, hpassed, row, hrow, hagrees⟩
    · obtain ⟨row, hrow, hagrees⟩ := hstored rfl
      exact .overtaken hcached hfresh (hrests.row.trans hrow) hagrees
    · refine .waiting (hrests.row.trans hrow) hagrees fun known hknown => ?_
      rw [hcached] at hknown
      cases hknown
      exact hpassed

/-- No operation but a purge or a sweep takes a row off its way, unless it opens another
channel than that of the passed do-not-disturb that the cache shows. -/
theorem undergoes (hturned : turned.isExpired now = false) (hclock : now ≤ clock)
    {operation : Operation} (hother : operation ≠ .clearCaches ∧ operation ≠ .expire)
    (hchannel : ∀ channel, operation = .change user (.openChannel channel) → ∀ known,
      held.cached = some known → known.isExpired now = true → known.channel = channel)
    (h : held.OnTheWay now turned)
    (hundergoes : held.Undergoes .calm user clock timeout operation later) :
    later.OnTheWay now turned := by
  cases hundergoes with
  | untouched hfades => exact hfades.eq_of_spares (Outside.calm_spares user) ▸ h
  | turned hturns =>
    exact h.turns hturned hclock (fun channel hopens => hchannel channel (hopens ▸ rfl)) hturns
  | refilled _ hrefills => exact h.refills hturned hrefills
  | noted hnotes => exact h.notes hturned hnotes
  | notedAway hnotes hturns =>
    exact (h.notes hturned hnotes).turns hturned hclock (fun _ hopens => by cases hopens) hturns
  | removed => exact .gone rfl rfl
  | cleared => exact absurd rfl hother.1
  | restored _ => exact absurd rfl hother.2

/-- Spreading the row of a user who has one leaves the cache in agreement with the store. -/
theorem spreads {turned : Record} (h : held.OnTheWay now turned) (hrow : held.row ≠ none)
    (hspreads : held.Spreads .calm user now turned later) : later.Backed := by
  have hspares := Outside.calm_spares user
  cases hspreads with
  | superseded hcached hnewer hfades =>
    obtain rfl := hfades.eq_of_spares hspares
    cases h with
    | waiting _ _ hpassed =>
      rw [hpassed _ hcached] at hnewer
      cases hnewer
    | overtaken hcached' _ hrow' hagrees => exact .of_cached hrow' hagrees (.inl hcached')
    | gone hrow' _ => exact absurd hrow' hrow
  | spread hfades hpassed hkept hcached _ _ =>
    obtain rfl := hfades.eq_of_spares hspares
    cases h with
    | waiting hrow' hagrees _ =>
      exact .of_cached (hkept.trans hrow') hagrees.symm (hcached.imp_right And.left)
    | overtaken hcached' hnewer _ _ =>
      rw [hpassed Outside.calm_faultless.cache _ hcached'] at hnewer
      cases hnewer
    | gone hrow' _ => exact absurd hrow' hrow

end Holding.OnTheWay

namespace SweepRun

/-- Nothing fails and nothing vanishes, and the store gives back the rows of sweeps in an order of
its own. -/
def calmly (order : Arrangement Record) : Outside := { Outside.calm with order := fun _ => order }

/-- The sweep begins: the rows have been turned, and none has been spread. -/
def begin (order : Arrangement Record) (site : Site) : SweepRun where
  site := ((Engine.storeSweep (calmly order) site.clock).run site).2
  now := site.clock
  pending := site.turned (calmly order) site.clock

/-- The run after a step. -/
def step (run : SweepRun) : SweepStep → SweepRun
  | .spread =>
    match run.pending with
    | [] => run
    | record :: rest =>
      { run with
        site := ((Engine.propagate .calm run.now record).run run.site).2
        pending := rest }
  | .operate operation => { run with site := ((operation.run .calm).run run.site).2 }
  | .setClock clock => { run with site := { run.site with clock } }

/-- The steps that may come beside a sweep: transitions, reads and removals, and a clock that
is not set back behind the sweep. -/
def Allows (run : SweepRun) : SweepStep → Prop
  | .spread => True
  | .operate operation => operation ≠ .clearCaches ∧ operation ≠ .expire
  | .setClock clock => run.now ≤ clock

/-- A step that neither spreads the row of a user who has none any more nor opens another
channel for a user whose passed do-not-disturb is still cached. -/
def Careful (run : SweepRun) (step : SweepStep) : Prop :=
  run.Allows step ∧
    (step = .spread → ∀ record ∈ run.pending.head?, run.site.store[record.userId]? ≠ none) ∧
    ∀ user channel, step = .operate (.change user (.openChannel channel)) →
      user ∈ run.pending.map Record.userId → ∀ known, run.site.cached? user = some known →
        known.isExpired run.now = true → known.channel = channel

/-- The runs that some steps lead to. -/
inductive Reaches (allows : SweepRun → SweepStep → Prop) (start : SweepRun) : SweepRun → Prop where
  /-- The run before any step. -/
  | start : Reaches allows start start
  /-- The run after one more step. -/
  | step {run : SweepRun} {next : SweepStep} (h : Reaches allows start run)
      (hallows : allows run next) : Reaches allows start (run.step next)

/-- Every one of a list of steps is allowed when its turn comes. -/
def Obeys (allows : SweepRun → SweepStep → Prop) : SweepRun → List SweepStep → Prop
  | _, [] => True
  | run, next :: rest => allows run next ∧ Obeys allows (run.step next) rest

/-- Steps that obey a discipline lead to a run that it reaches. -/
theorem Reaches.foldl {allows : SweepRun → SweepStep → Prop} {start run : SweepRun}
    (h : Reaches allows start run) {steps : List SweepStep} (hobeys : Obeys allows run steps) :
    Reaches allows start (steps.foldl SweepRun.step run) := by
  induction steps generalizing run with
  | nil => exact h
  | cons next rest ih => exact ih (.step h hobeys.1) hobeys.2

/-- The run after all its turned rows have been spread. -/
def spreadAll (run : SweepRun) : SweepRun :=
  run.pending.foldl (fun between _ => between.step .spread) run

theorem site_spreadAll (now : Moment) (pending : List Record) (site : Site) :
    (spreadAll ⟨site, now, pending⟩).site =
      ((pending.forM (Engine.propagate .calm now)).run site).2 := by
  induction pending generalizing site with
  | nil => rfl
  | cons record rest ih =>
    exact ih ((Engine.propagate .calm now record).run site).2

/-- A sweep is its steps one after the other, and then the forgetting of closed windows. -/
theorem sweep_eq_steps (order : Arrangement Record) (site : Site) :
    ((Engine.sweep (calmly order)).run site).2 =
      ((Engine.pruneSlots site.clock).run (begin order site).spreadAll.site).2 := by
  rw [begin, site_spreadAll]
  rfl

/-- What holds while a sweep is under way and no step is careless. -/
structure Underway (run : SweepRun) : Prop where
  /-- Rows and cached records stand under their users. -/
  filed : run.site.Filed
  /-- The clock is not behind the sweep. -/
  clock : run.now ≤ run.site.clock
  /-- No user has two turned rows. -/
  nodup : (run.pending.map Record.userId).Nodup
  /-- A turned row is no passed do-not-disturb. -/
  turned : ∀ record ∈ run.pending, record.isExpired run.now = false
  /-- A turned row is on the way. -/
  onTheWay : ∀ record ∈ run.pending,
    (run.site.holding record.userId).OnTheWay run.now record
  /-- The cache agrees with the store for all other users. -/
  backed : ∀ user, user ∉ run.pending.map Record.userId → (run.site.holding user).Backed

namespace Underway

variable {run : SweepRun}

/-- After the step on the store every turned row is on the way. -/
theorem begins (order : Arrangement Record) {site : Site} (hstep : site.InStep) :
    (begin order site).Underway := by
  obtain ⟨faded, hfades, ⟨-, hlater⟩ | ⟨fault, -, hfault, -⟩⟩ :=
    Engine.storeSweep_ensures (calmly order) site.clock site
  · have hsite : (begin order site).site = faded.withStore (site.store.sweep site.clock) := hlater
    have hopens := Site.Sweeping.opens hstep.coherent hfades site.clock
    refine ⟨?_, ?_, hopens.nodup, fun record hmem => ?_, fun record hmem => ?_,
      fun user huser => ?_⟩
    · rw [hsite]
      exact (hfades.works.filed hstep.filed).withStore (hstep.keyed.sweep site.clock)
    · rw [hsite]
      exact Int64.le_of_eq hfades.clock.symm
    · obtain ⟨user, row, -, -, rfl⟩ :=
        (Store.mem_expired_iff _ _ _).mp (Site.mem_turned_iff.mp hmem)
      simp [Record.isExpired, Record.restored]
    · rw [hsite]
      exact .waiting (hopens.row record hmem) (.refl record) (hopens.passed record hmem)
    · rw [hsite]
      exact hopens.coherent.cached user huser
  · cases hfault

/-- Spreading the next row takes it off the list. -/
theorem spread (h : run.Underway) (hcareful : run.Careful .spread) :
    (run.step .spread).Underway := by
  obtain ⟨site, now, pending⟩ := run
  cases pending with
  | nil => exact h
  | cons record rest =>
    obtain ⟨hfirst, hrest⟩ : record.userId ∉ rest.map Record.userId ∧
      (rest.map Record.userId).Nodup := List.nodup_cons.mp h.nodup
    have hrow : (site.holding record.userId).row ≠ none := hcareful.2.1 rfl record rfl
    obtain ⟨hworks, hspreads⟩ := Engine.propagate_spreads
      Outside.calm_faultless.cache.removesWork now record site
    have hothers : ∀ user, user ≠ record.userId →
        (((Engine.propagate .calm now record).run site).2.holding user) = site.holding user :=
      fun user hne => (hworks.others user fun hmem => hne (List.mem_singleton.mp hmem)).eq_of_spares
        (Outside.calm_spares user)
    refine ⟨hworks.filed h.filed, hworks.clock ▸ h.clock, hrest,
      fun other hmem => h.turned other (List.mem_cons_of_mem record hmem), fun other hmem => ?_,
      fun user huser => ?_⟩
    · have hne : other.userId ≠ record.userId := fun heq =>
        hfirst (heq ▸ List.mem_map_of_mem hmem)
      have hother := h.onTheWay other (List.mem_cons_of_mem record hmem)
      exact (hothers other.userId hne).symm ▸ hother
    · by_cases hsame : user = record.userId
      · subst hsame
        exact (h.onTheWay record List.mem_cons_self).spreads hrow hspreads
      · have hbacked := h.backed user fun hmem =>
          (List.mem_cons.mp hmem).elim hsame huser
        exact (hothers user hsame).symm ▸ hbacked

/-- An operation leaves the turned rows on the way and the other users in agreement. -/
theorem operate (h : run.Underway) {operation : Operation}
    (hcareful : run.Careful (.operate operation)) : (run.step (.operate operation)).Underway := by
  obtain ⟨hallowed, -, hchannel⟩ := hcareful
  have hruns := Operation.run_runs Outside.calm_faultless.cache.removesWork h.filed operation
  refine ⟨hruns.filed, hruns.clock ▸ h.clock, h.nodup, h.turned, fun record hmem => ?_,
    fun user huser => ?_⟩
  · refine (h.onTheWay record hmem).undergoes (h.turned record hmem) h.clock hallowed
      (fun channel hopens => ?_) (hruns.undergoes record.userId)
    exact hchannel record.userId channel (hopens ▸ rfl) (List.mem_map_of_mem hmem)
  · exact (h.backed user huser).undergoes (hruns.undergoes user)

/-- Every careful step keeps what holds while a sweep is under way. -/
theorem step (h : run.Underway) {next : SweepStep} (hcareful : run.Careful next) :
    (run.step next).Underway := by
  cases next with
  | spread => exact h.spread hcareful
  | operate operation => exact h.operate hcareful
  | setClock clock =>
    exact ⟨⟨h.filed.keyed, h.filed.cached⟩, hcareful.1, h.nodup, h.turned, h.onTheWay, h.backed⟩

end Underway

/-- Whatever careful steps come beside a sweep, and in whichever order its rows are spread, once
the last one has been every record that the cache holds agrees with the user's row. -/
theorem sweep_beside_agrees {order : Arrangement Record} {site : Site} {run : SweepRun}
    (hstep : site.InStep) (hreaches : Reaches Careful (begin order site) run)
    (hdone : run.pending = []) (user : String) (record : Record)
    (hcached : run.site.cached? user = some record) :
    ∃ row, run.site.store[user]? = some row ∧ record.AgreesWith row := by
  have hunderway : run.Underway := by
    clear hdone hcached
    induction hreaches with
    | start => exact .begins order hstep
    | step _ hcareful ih => exact ih.step hcareful
  refine hunderway.backed user ?_ record hcached
  rw [hdone]
  exact List.not_mem_nil

/-- Two users whose do-not-disturb has passed; the cache still shows one of them. -/
def crowded : Site where
  clock := 5000
  store := ((∅ : Store).insert
    "ada" ⟨"ada", .dnd, true, 10, some "help", some .away, some 4000⟩).insert
    "bob" ⟨"bob", .dnd, true, 10, none, some .online, some 5000⟩
  cache := (∅ : Table Bytes).insert "ada" (FrameCodec.record.encode
    ⟨"ada", .dnd, true, 20, some "help", some .away, some 4000⟩)

theorem crowded_inStep : crowded.InStep := by
  have hkeyed : crowded.store.Keyed := .insert (.insert Store.keyed_empty (by rfl)) (by rfl)
  refine ⟨hkeyed, fun user record hcached => ?_⟩
  have hshown : crowded.cached? user = if "ada" = user then
      some ⟨"ada", .dnd, true, 20, some "help", some .away, some 4000⟩ else none := by
    have hempty : ({ crowded with cache := ∅ } : Site).cached? user = none :=
      Site.cached?_empty rfl user
    exact (Site.cached?_hold { crowded with cache := ∅ }
      ⟨"ada", .dnd, true, 20, some "help", some .away, some 4000⟩ user).trans (by rw [hempty])
  rw [hshown] at hcached
  split at hcached
  · next hsame =>
    subst hsame
    cases hcached
    exact ⟨⟨"ada", .dnd, true, 10, some "help", some .away, some 4000⟩, by decide +kernel, rfl⟩
  · cases hcached

/-- A user shows up in the channel of the passed do-not-disturb, and another one is online
before the rows of the two are spread. -/
def careful : List SweepStep :=
  [.operate (.change "ada" (.openChannel (some "help"))), .operate (.change "bob" (.online true)),
    .setClock 6000, .spread, .operate (.remove "eve"), .spread]

/-- The sweep of the two users, whose rows the store gives back from the last one. -/
def crowdedRun : SweepRun := begin .backwards crowded

/-- After a careful run the cache shows the restored record of one user and the newer record of
the other one. -/
theorem sweep_beside_agrees_after_careful :
    ∃ ada bob, (careful.foldl step crowdedRun).site.cached? "ada" = some ada ∧
      (careful.foldl step crowdedRun).site.cached? "bob" = some bob ∧
      ada.status = .away ∧ bob.status = .online ∧
      (∃ row, (careful.foldl step crowdedRun).site.store["ada"]? = some row ∧ ada ≠ row ∧
        ada.AgreesWith row) ∧
      ∃ row, (careful.foldl step crowdedRun).site.store["bob"]? = some row ∧
        bob.AgreesWith row := by
  have hchannel : crowdedRun.Careful
      (.operate (.change "ada" (.openChannel (some "help")))) := by
    refine ⟨⟨nofun, nofun⟩, nofun, fun user channel hopens _ known hknown _ => ?_⟩
    cases hopens
    have hheld : (crowdedRun.site.cached? "ada").map Record.channel = some (some "help") := by
      decide +kernel
    rw [hknown] at hheld
    exact Option.some.inj hheld
  have hreaches : Reaches Careful crowdedRun (careful.foldl step crowdedRun) := by
    refine Reaches.start.foldl ⟨hchannel, ?_, ?_, ?_, ?_, ?_, trivial⟩
    · exact ⟨⟨nofun, nofun⟩, nofun, fun _ _ hopens => by cases hopens⟩
    · exact ⟨show (5000 : Moment) ≤ 6000 by decide, nofun, fun _ _ => nofun⟩
    · exact ⟨trivial, fun _ => by decide +kernel, fun _ _ => nofun⟩
    · exact ⟨⟨nofun, nofun⟩, nofun, fun _ _ => nofun⟩
    · exact ⟨trivial, fun _ => by decide +kernel, fun _ _ => nofun⟩
  have hdone : (careful.foldl step crowdedRun).pending = [] := by decide +kernel
  have hada : (careful.foldl step crowdedRun).site.cached? "ada" =
      some ⟨"ada", .away, false, 10, some "help", none, none⟩ := by decide +kernel
  have hbob : (careful.foldl step crowdedRun).site.cached? "bob" =
      some ⟨"bob", .online, false, 5000, none, none, none⟩ := by decide +kernel
  obtain ⟨row, hrow, hagrees⟩ :=
    sweep_beside_agrees crowded_inStep hreaches hdone "ada" _ hada
  refine ⟨_, _, hada, hbob, rfl, rfl, ⟨row, hrow, ?_, hagrees⟩,
    sweep_beside_agrees crowded_inStep hreaches hdone "bob" _ hbob⟩
  intro hsame
  subst hsame
  revert hrow
  decide +kernel

/-- Cache and store need not agree once the last row has been spread: a user who is removed
before the row is spread is cached again without a row. -/
theorem removed_user_cached_again :
    ¬∀ (order : Arrangement Record) (site : Site) (run : SweepRun), site.InStep →
      Reaches Allows (begin order site) run → run.pending = [] → run.site.InStep := by
  intro hclaim
  have hreaches : Reaches Allows (begin .asGiven crowded)
      ([.operate (.remove "ada"), .spread, .spread].foldl step (begin .asGiven crowded)) :=
    Reaches.start.foldl ⟨⟨nofun, nofun⟩, trivial, trivial, trivial⟩
  have hinStep := hclaim .asGiven _ _ crowded_inStep hreaches (by decide +kernel)
  have hcached : ([.operate (.remove "ada"), .spread, .spread].foldl step
      (begin .asGiven crowded)).site.cached? "ada" =
        some ⟨"ada", .away, false, 10, some "help", none, none⟩ := by decide +kernel
  have hgone : ([.operate (.remove "ada"), .spread, .spread].foldl step
      (begin .asGiven crowded)).site.store["ada"]? = none := by decide +kernel
  obtain ⟨row, hrow, -⟩ := hinStep.backed "ada" _ hcached
  rw [hgone] at hrow
  cases hrow

/-- Another channel that is opened on a passed do-not-disturb that the cache still shows writes
the do-not-disturb back to the store, and the sweep caches the restored record all the
same. -/
theorem opened_channel_overwritten :
    ∃ run, Reaches Allows (begin .asGiven crowded) run ∧ run.pending = [] ∧
      run.site.cached? "ada" = some ⟨"ada", .away, false, 10, some "help", none, none⟩ ∧
      run.site.store["ada"]? =
        some ⟨"ada", .dnd, true, 5000, some "general", some .away, some 4000⟩ :=
  ⟨_, Reaches.start.foldl (show Obeys Allows _ [.operate
      (.change "ada" (.openChannel (some "general"))), .spread, .spread] from
        ⟨⟨nofun, nofun⟩, trivial, trivial, trivial⟩),
    by decide +kernel, by decide +kernel, by decide +kernel⟩

end SweepRun

end PresenceTracker
