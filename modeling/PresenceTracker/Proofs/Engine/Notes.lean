import PresenceTracker.Engine.Operations
import PresenceTracker.Proofs.Engine.Confined

/-!
# What has been noted is never read

A site counts its calls, and notes what it has asked of the store, published to the other nodes
and shown to its clients. No operation reads these notes: it does the same whatever has been noted
before, and its own notes come behind. This holds where calls fail alike whenever they are made; a
failure that comes with the tenth call would tell how many calls have been noted. So a node that
keeps its notes and one that begins each operation with none cannot be told apart by anything else.
-/

namespace PresenceTracker

/-- What has been noted of a site. -/
structure Notes where
  /-- The number of calls. -/
  calls : Nat := 0
  /-- The calls to the store. -/
  asked : List StoreCall := []
  /-- The messages published. -/
  published : List Event := []
  /-- The events shown. -/
  shown : List PresenceEvent := []

namespace Site

/-- The site with notes in front of its own. -/
def noted (site : Site) (notes : Notes) : Site :=
  { site with
    calls := notes.calls + site.calls
    asked := notes.asked ++ site.asked
    published := notes.published ++ site.published
    shown := notes.shown ++ site.shown }

/-- The notes of a site. -/
def notes (site : Site) : Notes := ⟨site.calls, site.asked, site.published, site.shown⟩

/-- The site without its notes. -/
def unnoted (site : Site) : Site :=
  { site with
    calls := 0
    asked := []
    published := []
    shown := [] }

/-- A site is what it is without its notes, with these added. -/
theorem noted_notes (site : Site) : site.unnoted.noted site.notes = site := by
  simp [unnoted, noted, notes]

end Site

/-- Calls fail alike whenever they are made, no entry of the cache vanishes, and the store puts the
rows of every sweep in order in the same way. -/
structure Outside.Uniform (outside : Outside) : Prop extends outside.Steady where
  /-- The rows of every sweep are put in order in the same way. -/
  order : ∀ count other, outside.order count = outside.order other

/-- An action gives the same, and leaves the same, whatever has been noted before. -/
def IgnoresNotes {α : Type} (action : StateM Site α) : Prop :=
  ∀ notes site, action.run (site.noted notes) =
    ((action.run site).1, (action.run site).2.noted notes)

section Actions

variable {α β : Type} {action : StateM Site α}

/-- An action that only gives a value reads nothing. -/
theorem ignoresNotes_pure (value : α) : IgnoresNotes (pure value) := fun _ _ => rfl

/-- Actions one after the other read no notes if neither does. -/
theorem IgnoresNotes.bind {next : α → StateM Site β} (h : IgnoresNotes action)
    (hnext : ∀ value, IgnoresNotes (next value)) : IgnoresNotes (action >>= next) := by
  intro notes site
  show (next (action.run (site.noted notes)).1).run (action.run (site.noted notes)).2 = _
  rw [h notes site]
  exact hnext _ notes _

/-- What follows a look at the site reads no notes if it depends on nothing that they change. -/
theorem ignoresNotes_get_bind {next : Site → StateM Site α} (h : ∀ site, IgnoresNotes (next site))
    (hsame : ∀ notes site, next (site.noted notes) = next site) :
    IgnoresNotes (get >>= next) := by
  intro notes site
  show (next (site.noted notes)).run (site.noted notes) = _
  rw [hsame]
  exact h site notes site

/-- A change of the site reads no notes if it commutes with adding them. -/
theorem ignoresNotes_modify {change : Site → Site}
    (h : ∀ notes site, change (site.noted notes) = (change site).noted notes) :
    IgnoresNotes (modify change) :=
  fun notes site => Prod.ext rfl (h notes site)

/-- A loop over a list reads no notes if no round does. -/
theorem ignoresNotes_forM {round : α → StateM Site PUnit} (h : ∀ item, IgnoresNotes (round item))
    (items : List α) : IgnoresNotes (items.forM round) := by
  induction items with
  | nil => exact ignoresNotes_pure _
  | cons item rest ih => exact (h item).bind fun _ => ih

/-- A loop that carries a value reads no notes if no round does. -/
theorem ignoresNotes_foldlM {round : β → α → StateM Site β}
    (h : ∀ value item, IgnoresNotes (round value item)) (items : List α) (value : β) :
    IgnoresNotes (items.foldlM round value) := by
  induction items generalizing value with
  | nil => exact ignoresNotes_pure _
  | cons item rest ih =>
    rw [List.foldlM_cons]
    exact (h value item).bind ih

end Actions

namespace Engine

section Calls

variable {outside : Outside} (h : outside.Uniform)
include h

/-- A call is counted behind those that have been noted, and nothing vanishes. -/
theorem atCall_noted (notes : Notes) (site : Site) :
    (site.noted notes).atCall outside = (site.atCall outside).noted notes := by
  simp only [Site.atCall, Site.noted, h.stays, Nat.add_assoc]

/-- A look-up of a user fails always or never, and finds what the cache shows. -/
theorem cacheGet_ignoresNotes (user : String) : IgnoresNotes (cacheGet outside user) := by
  intro notes site
  have hfault := h.cache (site.noted notes).calls site.calls (.get user)
  simp only [cacheGet, StateT.run, atCall_noted h, hfault]
  cases outside.cacheFault site.calls (.get user) <;> rfl

/-- A call that changes the cache reads no notes. -/
theorem cacheCall_ignoresNotes (call : CacheCall) (change : Site → Site)
    (hchange : ∀ notes site, change (site.noted notes) = (change site).noted notes) :
    IgnoresNotes (fun site => match outside.cacheFault site.calls call with
      | some failure => (.error failure, site.atCall outside)
      | none => (.ok (), change (site.atCall outside)) : StateM Site (Except Failure Unit)) := by
  intro notes site
  have hfault := h.cache (site.noted notes).calls site.calls call
  simp only [StateT.run, atCall_noted h, hfault]
  cases outside.cacheFault site.calls call with
  | none => exact Prod.ext rfl (hchange notes _)
  | some failure => rfl

/-- A write to the cache fails always or never, and otherwise puts the record there. -/
theorem cachePut_ignoresNotes (record : Record) : IgnoresNotes (cachePut outside record) :=
  cacheCall_ignoresNotes h (.put record) (fun after => after.hold record) fun _ _ => rfl

/-- A removal from the cache fails always or never, and otherwise takes the user out. -/
theorem cacheRemove_ignoresNotes (user : String) : IgnoresNotes (cacheRemove outside user) :=
  cacheCall_ignoresNotes h (.remove user) (fun after => after.drop user) fun _ _ => rfl

/-- A purge fails always or never, and otherwise empties the cache. -/
theorem cachePurge_ignoresNotes : IgnoresNotes (cachePurge outside) :=
  cacheCall_ignoresNotes h .purge Site.clear fun _ _ => rfl

/-- A call to the store is noted behind the earlier ones, and fails always or never. -/
theorem storeCall_ignoresNotes {α : Type} (call : StoreCall)
    (run : Store → Except Failure α × Store) : IgnoresNotes (storeCall outside call run) := by
  intro notes site
  have hfault := h.store (site.noted notes).calls site.calls call
  simp only [storeCall, StateT.run, atCall_noted h, hfault]
  cases outside.storeFault site.calls call <;> simp only [Site.noted, List.append_assoc]

/-- The rows of a sweep come in an order that does not depend on earlier calls. -/
theorem storeSweep_ignoresNotes (now : Moment) : IgnoresNotes (storeSweep outside now) := by
  intro notes site
  have hturned : (site.noted notes).turned outside now = site.turned outside now := by
    rw [Site.turned, h.order _ site.calls, Site.turned]
    rfl
  show (storeCall outside (.sweep now)
    fun store => (.ok ((site.noted notes).turned outside now), store.sweep now)).run
      (site.noted notes) = _
  rw [hturned]
  exact storeCall_ignoresNotes h (.sweep now) _ notes site

end Calls

/-- What is published comes behind what has been noted. -/
theorem publish_ignoresNotes (event : Event) : IgnoresNotes (publish event) :=
  ignoresNotes_modify fun notes site => by simp only [Site.noted, List.append_assoc]

/-- Whether peers are told depends on the topic alone. -/
theorem publishToPeers_ignoresNotes (event : Topic → Event) :
    IgnoresNotes (publishToPeers event) := by
  refine ignoresNotes_get_bind (fun site => ?_) fun _ _ => rfl
  split
  · exact publish_ignoresNotes _
  · exact ignoresNotes_pure _

/-- What is shown comes behind what has been noted. -/
theorem showClients_ignoresNotes (presence : PresenceEvent) :
    IgnoresNotes (showClients presence) :=
  ignoresNotes_modify fun notes site => by simp only [Site.noted, List.append_assoc]

/-- A record that is shown and published is noted twice, and read nowhere. -/
theorem broadcast_ignoresNotes (record : Record) : IgnoresNotes (broadcast record) :=
  (showClients_ignoresNotes _).bind fun _ => publish_ignoresNotes _

/-- The end of an operation on a user looks at the user's slot only. -/
theorem release_ignoresNotes (user : String) : IgnoresNotes (release user) := by
  refine ignoresNotes_modify fun notes site => ?_
  have hskips : (site.noted notes).skipsWrite user = site.skipsWrite user := rfl
  rw [hskips]
  split <;> rfl

/-- When a row was written is read off the clock. -/
theorem notePersisted_ignoresNotes (user : String) : IgnoresNotes (notePersisted user) :=
  fun _ _ => rfl

section Operations

variable {outside : Outside} (h : outside.Uniform)
include h

/-- A load depends on the cache, and on the store if that gives nothing. -/
theorem load_ignoresNotes (user : String) : IgnoresNotes (load outside user) := by
  refine (cacheGet_ignoresNotes h user).bind fun found => ?_
  split
  · exact ignoresNotes_pure _
  · refine (storeCall_ignoresNotes h (.get user) _).bind fun result => ?_
    split
    · exact ignoresNotes_pure _
    · split <;> exact ignoresNotes_pure _
    · exact ignoresNotes_pure _

/-- Whether the old entry is removed depends on the write that has just failed. -/
theorem cacheAndSync_ignoresNotes (record : Record) :
    IgnoresNotes (cacheAndSync outside record) := by
  refine (cachePut_ignoresNotes h record).bind fun result => ?_
  split
  · exact publishToPeers_ignoresNotes _
  · exact (cacheRemove_ignoresNotes h record.userId).bind fun _ => publishToPeers_ignoresNotes _

/-- Whether a write may be skipped is read off the user's slot, not off the earlier calls. -/
theorem persist_ignoresNotes (user : String) (current : Current) (next : Record) :
    IgnoresNotes (persist outside user current next) := by
  unfold persist
  split
  · split
    · exact ignoresNotes_pure _
    · refine (storeCall_ignoresNotes h (.save next) _).bind fun result => ?_
      split
      · exact ignoresNotes_pure _
      · exact (notePersisted_ignoresNotes user).bind fun _ => ignoresNotes_pure _
  · refine ignoresNotes_get_bind (fun site => ?_) fun _ _ => rfl
    split
    · exact ignoresNotes_pure _
    · refine (storeCall_ignoresNotes h (.touch next.userId next.lastActivity) _).bind
        fun result => ?_
      split
      · exact (notePersisted_ignoresNotes user).bind fun _ => ignoresNotes_pure _
      · exact ignoresNotes_pure _
      · exact ignoresNotes_pure _

/-- A commit that has nothing to do notes nothing. -/
theorem commit_ignoresNotes (user : String) (current : Current) (next : Record) :
    IgnoresNotes (commit outside user current next) := by
  unfold commit
  split
  · exact ignoresNotes_pure _
  · refine (persist_ignoresNotes h user current next).bind fun result => ?_
    split
    · exact ignoresNotes_pure _
    · refine (cacheAndSync_ignoresNotes h next).bind fun _ => ?_
      split
      · exact (broadcast_ignoresNotes next).bind fun _ => ignoresNotes_pure _
      · exact ignoresNotes_pure _

/-- The decision on a transition depends on the current record, the clock and the settings. -/
theorem perform_ignoresNotes (user : String) (transition : Transition) :
    IgnoresNotes (perform outside user transition) := by
  refine (load_ignoresNotes h user).bind fun result => ?_
  split
  · exact ignoresNotes_pure _
  · refine ignoresNotes_get_bind (fun site => ?_) fun _ _ => rfl
    split
    · exact ignoresNotes_pure _
    · exact ignoresNotes_pure _
    · exact commit_ignoresNotes h user _ _

/-- A change is refused by what its caller has given, before anything is read. -/
theorem change_ignoresNotes (user : String) (transition : Transition) :
    IgnoresNotes (change outside user transition) := by
  refine ignoresNotes_get_bind (fun site => ?_) fun _ _ => rfl
  split
  · exact ignoresNotes_pure _
  · split
    · exact ignoresNotes_pure _
    · exact (perform_ignoresNotes h user transition).bind fun _ =>
        (release_ignoresNotes user).bind fun _ => ignoresNotes_pure _

/-- A row is taken over if the cache shows nothing of its user. -/
theorem backfill_ignoresNotes (record : Record) : IgnoresNotes (backfill outside record) := by
  refine (cacheGet_ignoresNotes h record.userId).bind fun found => ?_
  split
  · exact release_ignoresNotes _
  · exact (cachePut_ignoresNotes h record).bind fun _ => release_ignoresNotes _

/-- A read asks the store only if its own look-up has given nothing. -/
theorem read_ignoresNotes (user : String) : IgnoresNotes (read outside user) := by
  refine ignoresNotes_get_bind (fun site => ?_) fun _ _ => rfl
  split
  · exact ignoresNotes_pure _
  · split
    · exact ignoresNotes_pure _
    · refine (cacheGet_ignoresNotes h user).bind fun found => ?_
      split
      · exact ignoresNotes_pure _
      · refine (storeCall_ignoresNotes h (.get user) _).bind fun result => ?_
        split
        · exact (backfill_ignoresNotes h _).bind fun _ => ignoresNotes_pure _
        · split <;> exact ignoresNotes_pure _
        · exact ignoresNotes_pure _

/-- What a read falls back on depends on the user alone. -/
theorem readOrDefault_ignoresNotes (user : String) :
    IgnoresNotes (readOrDefault outside user) := by
  refine (read_ignoresNotes h user).bind fun result => ?_
  split <;> exact ignoresNotes_pure _

/-- What was gathered so far is handed on as a value, and not read off the notes. -/
theorem gatherOne_ignoresNotes (gathered : Gathered) (user : String) :
    IgnoresNotes (gatherOne outside gathered user) := by
  unfold gatherOne
  split
  · exact ignoresNotes_pure _
  · refine (cacheGet_ignoresNotes h user).bind fun found => ?_
    split <;> exact ignoresNotes_pure _

/-- A read of several users asks the store for those that it has not found itself. -/
theorem readMany_ignoresNotes (users : List String) : IgnoresNotes (readMany outside users) := by
  refine ignoresNotes_get_bind (fun site => ?_) fun _ _ => rfl
  split
  · exact ignoresNotes_pure _
  · refine (ignoresNotes_foldlM (gatherOne_ignoresNotes h) users {}).bind fun gathered => ?_
    split
    · exact ignoresNotes_pure _
    · refine (storeCall_ignoresNotes h (.getMany gathered.missing) _).bind fun result => ?_
      have hstored : ∀ found record, IgnoresNotes (gatherStored outside found record) :=
        fun _ record => (backfill_ignoresNotes h record).bind fun _ => ignoresNotes_pure _
      split
      · exact (ignoresNotes_foldlM hstored _ _).bind fun _ => ignoresNotes_pure _
      · exact ignoresNotes_pure _
      · exact ignoresNotes_pure _

/-- Whether a user is known is decided by the load. -/
theorem cacheActivity_ignoresNotes (user : String) (moment : Moment) :
    IgnoresNotes (cacheActivity outside user moment) := by
  refine (load_ignoresNotes h user).bind fun result => ?_
  split
  · exact ignoresNotes_pure _
  · split
    · exact (cachePut_ignoresNotes h _).bind fun _ => ignoresNotes_pure _
    · exact ignoresNotes_pure _

/-- Whether a change follows is decided by whether the user is known. -/
theorem setLastActivity_ignoresNotes (user : String) (moment : Moment) :
    IgnoresNotes (setLastActivity outside user moment) := by
  refine ignoresNotes_get_bind (fun site => ?_) fun _ _ => rfl
  split
  · exact ignoresNotes_pure _
  · split
    · exact ignoresNotes_pure _
    · refine (cacheActivity_ignoresNotes h user moment).bind fun known => ?_
      refine (release_ignoresNotes user).bind fun _ => ?_
      split
      · exact ignoresNotes_pure _
      · exact ignoresNotes_pure _
      · exact ignoresNotes_pure _
      · exact (change_ignoresNotes h user _).bind fun _ => ignoresNotes_pure _

/-- A removal goes on only if its own call to the store has not failed. -/
theorem remove_ignoresNotes (user : String) : IgnoresNotes (remove outside user) := by
  have hforget : IgnoresNotes (forget user) := fun _ _ => rfl
  have hdelete : IgnoresNotes (delete outside user) := by
    refine (storeCall_ignoresNotes h (.delete user) _).bind fun result => ?_
    split
    · exact ignoresNotes_pure _
    · exact (cacheRemove_ignoresNotes h user).bind fun _ =>
        (publishToPeers_ignoresNotes _).bind fun _ => hforget.bind fun _ => ignoresNotes_pure _
  refine ignoresNotes_get_bind (fun site => ?_) fun _ _ => rfl
  split
  · exact ignoresNotes_pure _
  · split
    · exact ignoresNotes_pure _
    · exact hdelete.bind fun _ => (release_ignoresNotes user).bind fun _ => ignoresNotes_pure _

/-- The peers are told of a purge only if it has not failed. -/
theorem clearCaches_ignoresNotes : IgnoresNotes (clearCaches outside) := by
  refine ignoresNotes_get_bind (fun site => ?_) fun _ _ => rfl
  split
  · exact ignoresNotes_pure _
  · refine (cachePurge_ignoresNotes h).bind fun result => ?_
    split
    · exact ignoresNotes_pure _
    · exact (publishToPeers_ignoresNotes _).bind fun _ => ignoresNotes_pure _

/-- Whether a turned row is superseded is decided by the look-up of its user. -/
theorem propagate_ignoresNotes (now : Moment) (record : Record) :
    IgnoresNotes (propagate outside now record) := by
  have hnote : IgnoresNotes (noteSwept record.userId now) := fun _ _ => rfl
  have hspread : IgnoresNotes
      (do cacheAndSync outside record; broadcast record; release record.userId) :=
    (cacheAndSync_ignoresNotes h record).bind fun _ =>
      (broadcast_ignoresNotes record).bind fun _ => release_ignoresNotes _
  refine hnote.bind fun _ => ?_
  refine (cacheGet_ignoresNotes h record.userId).bind fun found => ?_
  split
  · split
    · exact hspread
    · exact release_ignoresNotes _
  · exact hspread

/-- A sweep spreads the rows that its own call to the store has given back. -/
theorem expire_ignoresNotes : IgnoresNotes (expire outside) := by
  have hsweep : IgnoresNotes (sweep outside) := by
    refine ignoresNotes_get_bind (fun site => ?_) fun _ _ => rfl
    refine (storeSweep_ignoresNotes h site.clock).bind fun result => ?_
    have hprune : IgnoresNotes (pruneSlots site.clock) := fun _ _ => rfl
    split
    · exact ignoresNotes_pure _
    · exact (ignoresNotes_forM (propagate_ignoresNotes h site.clock) _).bind fun _ =>
        hprune.bind fun _ => ignoresNotes_pure _
  refine ignoresNotes_get_bind (fun site => ?_) fun _ _ => rfl
  split
  · exact ignoresNotes_pure _
  · exact hsweep.bind fun _ => ignoresNotes_pure _

/-- What a node does with an event of another one reads no notes either. -/
theorem receive_ignoresNotes (event : Event) : IgnoresNotes (receive outside event) := by
  cases event with
  | updateStatus record => exact (cachePut_ignoresNotes h record).bind fun _ => ignoresNotes_pure _
  | presenceChanged presence => exact showClients_ignoresNotes presence
  | invalidateCache topic key =>
    refine ignoresNotes_get_bind (fun site => ?_) fun _ _ => rfl
    split
    · cases key with
      | some user => exact (cacheRemove_ignoresNotes h user).bind fun _ => ignoresNotes_pure _
      | none => exact (cachePurge_ignoresNotes h).bind fun _ => ignoresNotes_pure _
    · exact ignoresNotes_pure _

end Operations

end Engine

/-- Where calls fail alike whenever they are made, an operation gives the same and leaves the same
whatever has been noted before. -/
theorem Operation.run_ignoresNotes {outside : Outside} (h : outside.Uniform)
    (operation : Operation) : IgnoresNotes (operation.run outside) := by
  cases operation with
  | change user transition =>
    exact (Engine.change_ignoresNotes h user transition).bind fun _ => ignoresNotes_pure _
  | read user => exact (Engine.read_ignoresNotes h user).bind fun _ => ignoresNotes_pure _
  | readOrDefault user =>
    exact (Engine.readOrDefault_ignoresNotes h user).bind fun _ => ignoresNotes_pure _
  | readMany users => exact (Engine.readMany_ignoresNotes h users).bind fun _ => ignoresNotes_pure _
  | setLastActivity user moment =>
    exact (Engine.setLastActivity_ignoresNotes h user moment).bind fun _ => ignoresNotes_pure _
  | remove user => exact (Engine.remove_ignoresNotes h user).bind fun _ => ignoresNotes_pure _
  | clearCaches => exact (Engine.clearCaches_ignoresNotes h).bind fun _ => ignoresNotes_pure _
  | expire => exact (Engine.expire_ignoresNotes h).bind fun _ => ignoresNotes_pure _

end PresenceTracker
