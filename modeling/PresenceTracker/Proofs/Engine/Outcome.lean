import PresenceTracker.Proofs.Engine.Holding
import PresenceTracker.Proofs.Engine.Reads

/-!
# What an operation can do to a user

For each kind of operation, everything that it can make of what a node holds of one user,
whichever calls fail but removals from the cache. A transition fails, keeps the record that it
loads, or takes another one in its place; a read fills a gap of the cache; a sweep spreads the
record after a passed deadline. What is kept by an operation is derived from this by going
through the cases, such as the agreement of the cache with the row.
-/

namespace PresenceTracker

namespace Holding

/-- What loading a user gives: the cached record, or else the row, or else the default. A
cache that works is passed over only where it shows nothing. -/
inductive Gives (outside : Outside) (user : String) (held : Holding) : Current → Prop where
  /-- The cache shows the record. -/
  | cached {record : Record} (h : held.cached = some record) :
      Gives outside user held ⟨record, true⟩
  /-- The record is the user's row. -/
  | stored {record : Record} (hmiss : outside.CacheWorks → held.cached = none)
      (h : held.row = some record) : Gives outside user held ⟨record, true⟩
  /-- There is no row, unless the store is not truthful. -/
  | missing (hmiss : outside.CacheWorks → held.cached = none)
      (h : outside.Truthful → held.row = none) : Gives outside user held (.missing user)

/-- What becomes of a row when the next record is written: it is replaced where a full write
is needed; otherwise at most its activity changes. -/
def Stores (current : Current) (next : Record) (before after : Option Record) : Prop :=
  if current.needsFullSave next then next.validate = .ok () ∧ after = some next
  else after = before ∨ after = before.map fun row => { row with lastActivity := next.lastActivity }

/-- The next record of a user has been written to the store, and nothing was let out. -/
structure Writes (current : Current) (next : Record) (held later : Holding) : Prop where
  /-- The record was written. -/
  row : Stores current next held.row later.row
  /-- Nothing was shown. -/
  shown : later.shown = held.shown
  /-- Nothing was announced. -/
  announced : later.announced = held.announced

/-- The next record of a user has taken the place of the current one, and was let out if
clients can tell the two apart. -/
structure Takes (outside : Outside) (user : String) (current : Current) (next : Record)
    (held later : Holding) : Prop where
  /-- The record was written. -/
  row : Stores current next held.row later.row
  /-- The cache shows the record, unless it has lost the user. -/
  cached : later.cached = some next ∨ later.cached = none ∧ ¬outside.Spares user
  /-- Clients are shown what they can tell apart. -/
  shown : later.shown =
    held.shown ++ if current.record.differsVisibly next then [next.presence] else []
  /-- Other nodes are told the same. -/
  announced : later.announced =
    held.announced ++ if current.record.differsVisibly next then [next.presence] else []

/-- What a transition at `now` can do to what is held of its user. -/
inductive Turns (outside : Outside) (user : String) (transition : Transition)
    (now timeout : Moment) (held : Holding) : Except Failure Record → Holding → Prop where
  /-- It fails and changes nothing. -/
  | fails {failure : Failure} {later : Holding} (hfades : held.Fades outside user later) :
      Turns outside user transition now timeout held (.error failure) later
  /-- It keeps the record that it loads. -/
  | keeps {current : Current} {later : Holding} (hfades : held.Fades outside user later)
      (hgives : later.Gives outside user current)
      (hkeeps : transition.decision current now timeout = .ok .keep ∨
        current.persisted = true ∧
          transition.decision current now timeout = .ok (.apply current.record)) :
      Turns outside user transition now timeout held (.ok current.record) later
  /-- It takes another record in the place of the one that it loads. -/
  | takes {current : Current} {next : Record} {loaded later : Holding}
      (hfades : held.Fades outside user loaded) (hgives : loaded.Gives outside user current)
      (hdecision : transition.decision current now timeout = .ok (.apply next))
      (htakes : loaded.Takes outside user current next later) :
      Turns outside user transition now timeout held (.ok next) later

/-- What a read can do to what is held of a user: it may fill the cache with the row. -/
structure Refills (outside : Outside) (user : String) (held later : Holding) : Prop
    extends held.Rests later where
  /-- The cache shows the same or the row, unless it has lost the user. -/
  cached : later.cached = held.cached ∨ (later.cached = none ∧ ¬outside.Spares user) ∨
    ∃ row, held.row = some row ∧ later.cached = some row

/-- What setting the last activity in the cache can do to what is held of a user. -/
inductive Notes (outside : Outside) (user : String) (moment : Moment) (held : Holding) :
    Holding → Prop where
  /-- Nothing is noted. -/
  | ignored {later : Holding} (hfades : held.Fades outside user later) :
      Notes outside user moment held later
  /-- The user is known, and the cache shows the current record with the moment. -/
  | noted {record : Record} {loaded later : Holding} (hfades : held.Fades outside user loaded)
      (hgives : loaded.Gives outside user ⟨record, true⟩) (hrests : held.Rests later)
      (hcached : later.cached = some { record with lastActivity := moment }) :
      Notes outside user moment held later

/-- What spreading a row that a sweep at `now` turned can do to what is held of its user. -/
inductive Spreads (outside : Outside) (user : String) (now : Moment) (record : Record)
    (held : Holding) : Holding → Prop where
  /-- The cache shows a newer record, and nothing happens. -/
  | superseded {known : Record} {later : Holding} (hcached : held.cached = some known)
      (hnewer : known.isExpired now = false) (hfades : held.Fades outside user later) :
      Spreads outside user now record held later
  /-- The record is cached, unless the cache loses the user, and let out. A cache that works
  shows nothing newer. -/
  | spread {loaded later : Holding} (hfades : held.Fades outside user loaded)
      (hpassed : outside.CacheWorks → ∀ known, loaded.cached = some known →
        known.isExpired now = true)
      (hrow : later.row = held.row)
      (hcached : later.cached = some record ∨ later.cached = none ∧ ¬outside.Spares user)
      (hshown : later.shown = held.shown ++ [record.presence])
      (hannounced : later.announced = held.announced ++ [record.presence]) :
      Spreads outside user now record held later

/-- What a sweep at `now` that the store does not refuse does to what is held of a user: a
row whose deadline has passed is turned and spread, and otherwise nothing happens. -/
structure Restores (outside : Outside) (user : String) (now : Moment) (held later : Holding) :
    Prop where
  /-- A row whose deadline has passed is turned and spread. -/
  turned : ∀ row, held.row = some row → row.isExpired now = true →
    Spreads outside user now row.restored { held with row := some row.restored } later
  /-- If the deadline has not passed, nothing happens. -/
  kept : (∀ row, held.row = some row → row.isExpired now = false) → held.Fades outside user later

/-- What an operation at `now` can do to what is held of a user. -/
inductive Undergoes (outside : Outside) (user : String) (now timeout : Moment)
    (held : Holding) : Operation → Holding → Prop where
  /-- Nothing: the operation is about another user, fails, or finds nothing to do. -/
  | untouched {operation : Operation} {later : Holding} (hfades : held.Fades outside user later) :
      Undergoes outside user now timeout held operation later
  /-- A transition takes its turn. -/
  | turned {transition : Transition} {result : Except Failure Record} {later : Holding}
      (hturns : held.Turns outside user transition now timeout result later) :
      Undergoes outside user now timeout held (.change user transition) later
  /-- A read fills the cache. -/
  | refilled {operation : Operation} {later : Holding} (honly : operation.onlyObserves = true)
      (hrefills : held.Refills outside user later) :
      Undergoes outside user now timeout held operation later
  /-- The last activity is noted. -/
  | noted {moment : Moment} {later : Holding} (hnotes : held.Notes outside user moment later) :
      Undergoes outside user now timeout held (.setLastActivity user moment) later
  /-- The last activity is noted, and the user may be found to be away. -/
  | notedAway {moment : Moment} {noted later : Holding} {result : Except Failure Record}
      (hnotes : held.Notes outside user moment noted)
      (hturns : noted.Turns outside user (.away false) now timeout result later) :
      Undergoes outside user now timeout held (.setLastActivity user moment) later
  /-- The user is removed. -/
  | removed : Undergoes outside user now timeout held (.remove user)
      { held with cached := none, row := none }
  /-- The cache is emptied. -/
  | cleared : Undergoes outside user now timeout held .clearCaches { held with cached := none }
  /-- A sweep restores the user if the deadline has passed. -/
  | restored {later : Holding} (hrestores : held.Restores outside user now later) :
      Undergoes outside user now timeout held .expire later

variable {outside : Outside} {user : String} {held later last : Holding}

/-- What is written to the row is what is held, though the cache may lose the user. -/
theorem Writes.of_fades {current : Current} {next : Record} {row : Option Record}
    (hstores : Stores current next held.row row)
    (hfades : Fades outside user { held with row := row } later) : held.Writes current next later :=
  ⟨hfades.row ▸ hstores, hfades.shown, hfades.announced⟩

theorem Fades.refills (h : held.Fades outside user later) : held.Refills outside user later :=
  ⟨h.toRests, h.cached.imp_right .inl⟩

theorem Refills.trans (h : held.Refills outside user later)
    (h' : later.Refills outside user last) : held.Refills outside user last := by
  refine ⟨h.toRests.trans h'.toRests, ?_⟩
  rcases h'.cached with hsame | hlost | ⟨row, hrow, hfilled⟩
  · rw [hsame]
    exact h.cached
  · exact .inr (.inl hlost)
  · exact .inr (.inr ⟨row, h.row ▸ hrow, hfilled⟩)

/-- Losing an entry before a row is spread changes nothing about the spreading. -/
theorem Spreads.after_fades {now : Moment} {record : Record}
    (h : held.Fades outside user later) (h' : later.Spreads outside user now record last) :
    held.Spreads outside user now record last := by
  cases h' with
  | superseded hcached hnewer hfades =>
    exact .superseded (h.of_cached hcached) hnewer (h.trans hfades)
  | spread hfades hpassed hrow hcached hshown hannounced =>
    exact .spread (h.trans hfades) hpassed (hrow.trans h.row) hcached (h.shown ▸ hshown)
      (h.announced ▸ hannounced)

/-- Losing an entry after a row was spread changes nothing about the spreading. -/
theorem Spreads.fades {now : Moment} {record : Record}
    (h : held.Spreads outside user now record later) (h' : later.Fades outside user last) :
    held.Spreads outside user now record last := by
  cases h with
  | superseded hcached hnewer hfades => exact .superseded hcached hnewer (hfades.trans h')
  | spread hfades hpassed hrow hcached hshown hannounced =>
    refine .spread hfades hpassed (h'.row.trans hrow) ?_ (h'.shown.trans hshown)
      (h'.announced.trans hannounced)
    rcases h'.cached with hsame | hlost
    · exact hsame ▸ hcached
    · exact .inr hlost

/-- What the cache shows of a user agrees with the row. -/
def Backed (held : Holding) : Prop :=
  ∀ record, held.cached = some record → ∃ row, held.row = some row ∧ record.AgreesWith row

/-- An entry that is lost leaves nothing that would have to agree with the row. -/
theorem Backed.fades (h : held.Backed) (hfades : held.Fades outside user later) :
    later.Backed := by
  intro record hcached
  rw [hfades.row]
  exact h record (hfades.of_cached hcached)

/-- Where the cache agrees with the store, the current record agrees with the row. -/
theorem Backed.current_agrees (h : held.Backed) {record : Record}
    (hcurrent : held.current? = some record) :
    ∃ row, held.row = some row ∧ record.AgreesWith row := by
  cases hcached : held.cached with
  | none =>
    rw [current?, hcached, Option.none_or] at hcurrent
    exact ⟨record, hcurrent, .refl record⟩
  | some known =>
    rw [current?, hcached, Option.some_or] at hcurrent
    cases hcurrent
    exact h record hcached

/-- Where the cache agrees with the store, every row is seen. -/
theorem Backed.sees (h : held.Backed) {row : Record} (hrow : held.row = some row) :
    ∃ record, held.current? = some record ∧ record.AgreesWith row := by
  cases hcached : held.cached with
  | none => exact ⟨row, by rw [current?, hcached, Option.none_or, hrow], .refl row⟩
  | some known =>
    obtain ⟨row', hrow', hagrees⟩ := h known hcached
    obtain rfl : row = row' := Option.some.inj (hrow.symm.trans hrow')
    exact ⟨known, by rw [current?, hcached, Option.some_or], hagrees⟩

/-- Where the cache agrees with the store, a record that is loaded agrees with the row. -/
theorem Gives.agrees (hbacked : held.Backed) {current : Current}
    (hgives : held.Gives outside user current) (hpersisted : current.persisted = true) :
    ∃ row, held.row = some row ∧ current.record.AgreesWith row := by
  cases hgives with
  | cached hcached => exact hbacked _ hcached
  | stored _ hstored => exact ⟨_, hstored, .refl _⟩
  | missing _ hnone => cases hpersisted

/-- A record that was taken agrees with the row if the current one did. -/
theorem Takes.agrees {current : Current} {next : Record}
    (htakes : held.Takes outside user current next later)
    (hnext : next.userId = current.record.userId)
    (hcurrent : current.persisted = true →
      ∃ row, held.row = some row ∧ current.record.AgreesWith row) :
    ∃ row, later.row = some row ∧ next.AgreesWith row := by
  have hstores := htakes.row
  unfold Stores at hstores
  split at hstores
  · exact ⟨next, hstores.2, .refl next⟩
  · next hpartial =>
    obtain ⟨hpersisted, hsame⟩ :=
      Current.agreesWith_of_not_needsFullSave hnext (by simpa using hpartial)
    obtain ⟨row, hrow, hagrees⟩ := hcurrent hpersisted
    rcases hstores with hkept | htouched
    · exact ⟨row, hkept.trans hrow, hsame.trans hagrees⟩
    · rw [hrow] at htouched
      exact ⟨_, htouched, (hsame.trans hagrees).trans (Record.AgreesWith.withActivity row _).symm⟩

/-- Where the cache agrees with the store, what it shows has passed if the row has. -/
theorem Backed.isExpired_of_row (h : held.Backed) {row known : Record} {now : Moment}
    (hrow : held.row = some row) (hpassed : row.isExpired now = true)
    (hcached : held.cached = some known) : known.isExpired now = true := by
  obtain ⟨row', hrow', hagrees⟩ := h known hcached
  rw [hrow] at hrow'
  cases hrow'
  rw [hagrees.isExpired_eq, hpassed]

/-- A record that agrees with the row and is all that the cache can show keeps the two in
agreement. -/
theorem Backed.of_cached {record row : Record} (hrow : held.row = some row)
    (hagrees : record.AgreesWith row) (hcached : held.cached = some record ∨ held.cached = none) :
    held.Backed := by
  intro other hother
  rcases hcached with hheld | hlost
  · rw [hheld] at hother
    cases hother
    exact ⟨row, hrow, hagrees⟩
  · rw [hlost] at hother
    cases hother

/-- A transition keeps cache and row in agreement. -/
theorem Backed.turns (h : held.Backed) {transition : Transition} {now timeout : Moment}
    {result : Except Failure Record}
    (hturns : held.Turns outside user transition now timeout result later) : later.Backed := by
  cases hturns with
  | fails hfades => exact h.fades hfades
  | keeps hfades _ _ => exact h.fades hfades
  | takes hfades hgives hdecision htakes =>
    obtain ⟨row, hrow, hagrees⟩ := htakes.agrees (Transition.userId_of_apply hdecision)
      (hgives.agrees (h.fades hfades))
    exact .of_cached hrow hagrees (htakes.cached.imp_right And.left)

/-- A read keeps cache and row in agreement. -/
theorem Backed.refills (h : held.Backed) (hrefills : held.Refills outside user later) :
    later.Backed := by
  rcases hrefills.cached with hsame | ⟨hlost, -⟩ | ⟨row, hrow, hfilled⟩
  · intro record hcached
    rw [hrefills.row]
    exact h record (hsame ▸ hcached)
  · intro record hcached
    rw [hlost] at hcached
    cases hcached
  · exact .of_cached (hrefills.row.trans hrow) (.refl row) (.inl hfilled)

/-- Noting the activity keeps cache and row in agreement. -/
theorem Backed.notes (h : held.Backed) {moment : Moment}
    (hnotes : held.Notes outside user moment later) : later.Backed := by
  cases hnotes with
  | ignored hfades => exact h.fades hfades
  | noted hfades hgives hrests hcached =>
    obtain ⟨row, hrow, hagrees⟩ := hgives.agrees (h.fades hfades) rfl
    have hstored := hrests.row.trans (hfades.row.symm.trans hrow)
    exact .of_cached hstored ((Record.AgreesWith.withActivity _ moment).trans hagrees)
      (.inl hcached)

/-- A sweep keeps cache and row in agreement. -/
theorem Backed.restores (h : held.Backed) {now : Moment}
    (hrestores : held.Restores outside user now later) : later.Backed := by
  by_cases hpassed : ∃ row, held.row = some row ∧ row.isExpired now = true
  · obtain ⟨row, hrow, hexpired⟩ := hpassed
    cases hrestores.turned row hrow hexpired with
    | superseded hcached hnewer hfades =>
      rw [h.isExpired_of_row hrow hexpired hcached] at hnewer
      cases hnewer
    | spread _ _ hturned hcached _ _ =>
      exact .of_cached hturned (.refl row.restored) (hcached.imp_right And.left)
  · have hkept := hrestores.kept fun row hrow =>
      Bool.eq_false_iff.mpr fun hexpired => hpassed ⟨row, hrow, hexpired⟩
    exact h.fades hkept

/-- Every operation keeps cache and row in agreement. -/
theorem Backed.undergoes (h : held.Backed) {operation : Operation} {now timeout : Moment}
    (hundergoes : held.Undergoes outside user now timeout operation later) : later.Backed := by
  cases hundergoes with
  | untouched hfades => exact h.fades hfades
  | turned hturns => exact h.turns hturns
  | refilled _ hrefills => exact h.refills hrefills
  | noted hnotes => exact h.notes hnotes
  | notedAway hnotes hturns => exact (h.notes hnotes).turns hturns
  | removed => exact fun _ => nofun
  | cleared => exact fun _ => nofun
  | restored hrestores => exact h.restores hrestores

end Holding

end PresenceTracker
