import Mathlib.Data.List.Chain
import PresenceTracker.Proofs.Engine.Frame
import PresenceTracker.Proofs.Engine.Outcome
import PresenceTracker.Proofs.Record.Choice

/-!
# What clients are told

Clients see of a record its state, whether it was chosen, and its deadline. A node shows its
own clients exactly the events that it has the other nodes show theirs, in the same order.
And an operation that is no removal announces a user once if what clients would see of the
user's row has changed, and not at all otherwise, provided that cache and store agree and
that the store does not report a failure to read a row as a missing row.
-/

namespace PresenceTracker

/-- What clients can tell apart. -/
structure Look where
  /-- The presence state. -/
  status : Status
  /-- Whether the state was chosen and not inferred. -/
  manual : Bool
  /-- The deadline of a do-not-disturb. -/
  deadline : Option Moment
  deriving DecidableEq, Repr

/-- What clients see of a record. -/
def Record.look (record : Record) : Look := ⟨record.status, record.manual, record.deadline⟩

/-- What clients see in an event. -/
def PresenceEvent.look (presence : PresenceEvent) : Look :=
  ⟨presence.status, presence.manual, presence.deadline⟩

/-- Clients can tell records apart whose looks differ, and no others. -/
theorem Record.differsVisibly_iff (record other : Record) :
    record.differsVisibly other = true ↔ record.look ≠ other.look := by
  simp only [differsVisibly, look, ne_eq, Bool.or_eq_true, decide_eq_true_eq, Look.mk.injEq]
  tauto

/-- Records that agree look the same. -/
theorem Record.AgreesWith.look_eq {record other : Record} (h : record.AgreesWith other) :
    record.look = other.look := by
  obtain ⟨hstatus, hmanual, -, hdeadline⟩ := Record.SameChoice.of_agrees h
  rw [Record.look, Record.look, hstatus, hmanual, hdeadline]

/-- A row whose deadline has passed looks otherwise once it has been restored. -/
theorem Record.look_restored_ne {row : Record} {now : Moment}
    (hpassed : row.isExpired now = true) : row.restored.look ≠ row.look := by
  intro hsame
  have hmanual : row.manual = true := by
    simp only [Record.isExpired, Bool.and_eq_true] at hpassed
    exact hpassed.1.2
  have hchosen : false = row.manual := congrArg Look.manual hsame
  rw [hmanual] at hchosen
  cases hchosen

/-- The event that all nodes are to show their clients, if a message carries one. -/
def Event.presence? : Event → Option PresenceEvent
  | .presenceChanged presence => some presence
  | _ => none

/-- The events about one user are those of all events that are about the user. -/
theorem Event.filterMap_announces? (user : String) (events : List Event) :
    events.filterMap (Event.announces? user) =
      (events.filterMap Event.presence?).filter fun presence => presence.userId = user := by
  rw [List.filter_filterMap]
  congr 1
  funext event
  cases event with
  | presenceChanged presence => by_cases huser : presence.userId = user <;>
      simp [announces?, presence?, Option.filter, huser]
  | updateStatus record => rfl
  | invalidateCache topic key => rfl

namespace Site

/-- Since a moment a site has shown its clients what it had the other nodes show theirs. -/
structure Echoes (site later : Site) : Prop where
  /-- The topic of the cache is the same. -/
  topic : later.topic = site.topic
  /-- What was shown is what was published for clients, and a node whose cache is shared has
  published nothing else. -/
  events : ∃ events, later.published = site.published ++ events ∧
    later.shown = site.shown ++ events.filterMap Event.presence? ∧
    (site.topic.needsPeers = false →
      ∀ event ∈ events, ∃ presence, event = .presenceChanged presence)

namespace Echoes

variable {site later last : Site}

/-- A site that let nothing out echoes. -/
theorem of_silent (htopic : later.topic = site.topic)
    (hpublished : later.published = site.published) (hshown : later.shown = site.shown) :
    site.Echoes later :=
  ⟨htopic, [], by rw [hpublished, List.append_nil], by rw [hshown]; exact (List.append_nil _).symm,
    fun _ _ => nofun⟩

theorem trans (h : site.Echoes later) (h' : later.Echoes last) : site.Echoes last := by
  obtain ⟨events, hpublished, hshown, honly⟩ := h.events
  obtain ⟨events', hpublished', hshown', honly'⟩ := h'.events
  refine ⟨h'.topic.trans h.topic, events ++ events', ?_, ?_, fun hneeds event hmem => ?_⟩
  · rw [hpublished', hpublished, List.append_assoc]
  · rw [hshown', hshown, List.filterMap_append, List.append_assoc]
  · rcases List.mem_append.mp hmem with hfirst | hsecond
    · exact honly hneeds event hfirst
    · exact honly' (h.topic ▸ hneeds) event hsecond

end Echoes

/-- All calls show clients of the node what they have the other nodes show. -/
theorem echoes_frame (outside : Outside) : FullFrame outside Echoes where
  refl _ := .of_silent rfl rfl rfl
  trans := .trans
  fades h _ := .of_silent h.topic h.published h.shown
  asks _ _ h _ := .of_silent h.topic h.published h.shown
  hold _ _ := .of_silent rfl rfl rfl
  drop _ _ := .of_silent rfl rfl rfl
  clear _ := .of_silent rfl rfl rfl
  tell site event hneeds hkind := by
    refine ⟨rfl, [event], rfl, ?_, fun hshared => ?_⟩
    · cases event with
      | presenceChanged presence => exact absurd rfl hkind
      | updateStatus record => exact (List.append_nil _).symm
      | invalidateCache topic key => exact (List.append_nil _).symm
    · rw [hneeds] at hshared
      cases hshared
  broadcast site presence := by
    refine ⟨rfl, [.presenceChanged presence], rfl, rfl, fun _ event hmem => ?_⟩
    exact ⟨presence, List.mem_singleton.mp hmem⟩
  release site user := by
    refine ensures_modify ?_
    split <;> exact .of_silent rfl rfl rfl
  writes _ _ h _ _ := .of_silent h.topic h.published h.shown
  slots _ _ := .of_silent rfl rfl rfl

end Site

namespace Engine

/-- A node shows its clients the events of other nodes that are for clients. It publishes
nothing, and changes no rows. -/
theorem receive_shows (outside : Outside) (event : Event) (site : Site) :
    Ensures (receive outside event) site fun _ later => later.store = site.store ∧
      later.published = site.published ∧
        later.shown = site.shown ++ event.presence?.toList := by
  have hsilent : ∀ later, site.Fades outside later → later.store = site.store ∧
      later.published = site.published ∧ later.shown = site.shown ++ [] := fun later hfades =>
    ⟨hfades.store, hfades.published, hfades.shown.trans (List.append_nil _).symm⟩
  cases event with
  | updateStatus record =>
    refine (cachePut_ensures outside record site).bind fun _ later hcall => ?_
    obtain ⟨faded, hfades, ⟨-, rfl⟩ | ⟨-, -, -, rfl⟩⟩ := hcall
    · exact ensures_pure (hsilent faded hfades)
    · exact ensures_pure (hsilent _ hfades)
  | presenceChanged presence => exact ensures_modify ⟨rfl, rfl, rfl⟩
  | invalidateCache topic key =>
    refine ensures_get_bind ?_
    split
    · cases key with
      | some gone =>
        refine (cacheRemove_ensures outside gone site).bind fun _ later hcall => ?_
        obtain ⟨faded, hfades, ⟨-, rfl⟩ | ⟨-, -, -, rfl⟩⟩ := hcall
        · exact ensures_pure (hsilent faded hfades)
        · exact ensures_pure (hsilent _ hfades)
      | none =>
        refine (cachePurge_ensures outside site).bind fun _ later hcall => ?_
        obtain ⟨faded, hfades, ⟨-, rfl⟩ | ⟨-, -, -, rfl⟩⟩ := hcall
        · exact ensures_pure (hsilent faded hfades)
        · exact ensures_pure (hsilent _ hfades)
    · exact ensures_pure ⟨rfl, rfl, (List.append_nil _).symm⟩

end Engine

/-- What clients are to see of a user: the user's row, or else the default. -/
def Store.look (store : Store) (user : String) : Look :=
  (store[user]?.getD (.offlineDefault user)).look

/-- What clients saw last in events about a user, or the default. -/
def lastLook (user : String) (events : List PresenceEvent) : Look :=
  (events.getLast?.map PresenceEvent.look).getD (Record.offlineDefault user).look

namespace Holding

variable {outside : Outside} {user : String} {held later : Holding}

/-- What clients are to see of the row that is held of a user. -/
def look (held : Holding) (user : String) : Look := (held.row.getD (.offlineDefault user)).look

/-- A user was announced once if what clients are to see has changed, and not otherwise. -/
def Announces (user : String) (held later : Holding) : Prop :=
  (later.announced = held.announced ∧ later.look user = held.look user) ∨
    ∃ presence, later.announced = held.announced ++ [presence] ∧
      presence.look = later.look user ∧ presence.look ≠ held.look user

theorem Rests.announces (h : held.Rests later) : held.Announces user later :=
  .inl ⟨h.announced, congrArg (fun row => (row.getD (.offlineDefault user)).look) h.row⟩

/-- Where nothing was announced and the row is the same, it is as if nothing had happened. -/
theorem Announces.of_rests {between : Holding} (h : held.Rests between)
    (h' : between.Announces user later) : held.Announces user later := by
  have hlook : between.look user = held.look user := congrArg
    (fun row => (row.getD (.offlineDefault user)).look) h.row
  rcases h' with ⟨hannounced, hsame⟩ | ⟨presence, hannounced, hshows, hdiffers⟩
  · exact .inl ⟨hannounced.trans h.announced, hsame.trans hlook⟩
  · exact .inr ⟨presence, h.announced ▸ hannounced, hshows, hlook ▸ hdiffers⟩

/-- What is loaded looks like the row, provided that a missing row is reported as such only
where there is none. -/
theorem Gives.look_eq (htruthful : outside.Truthful) (hbacked : held.Backed) {current : Current}
    (hgives : held.Gives outside user current) : current.record.look = held.look user := by
  cases hgives with
  | cached hcached =>
    obtain ⟨row, hrow, hagrees⟩ := hbacked _ hcached
    rw [look, hrow]
    exact hagrees.look_eq
  | stored _ hstored => rw [look, hstored, Option.getD_some]
  | missing _ hnone => rw [look, hnone htruthful, Option.getD_none]; rfl

/-- A record that takes the place of the current one is announced if clients can tell the two
apart. -/
theorem Takes.announces {current : Current} {next : Record}
    (hcurrent : current.record.look = held.look user)
    (hnext : next.userId = current.record.userId)
    (htakes : held.Takes outside user current next later) : held.Announces user later := by
  have hlook : later.look user = next.look := by
    have hstores := htakes.row
    unfold Stores at hstores
    split at hstores
    · rw [look, hstores.2, Option.getD_some]
    · next hpartial =>
      obtain ⟨-, hsame⟩ := Current.agreesWith_of_not_needsFullSave hnext (by simpa using hpartial)
      rw [hsame.look_eq, hcurrent]
      rcases hstores with hkept | htouched
      · rw [look, look, hkept]
      · rw [look, look, htouched]
        cases held.row <;> rfl
  have hannounced := htakes.announced
  by_cases hdiffers : current.record.differsVisibly next = true
  · rw [if_pos hdiffers] at hannounced
    have hne := (Record.differsVisibly_iff _ _).mp hdiffers
    rw [hcurrent] at hne
    exact .inr ⟨next.presence, hannounced, hlook.symm, hne.symm⟩
  · rw [if_neg hdiffers, List.append_nil] at hannounced
    have hsame := not_not.mp (mt (Record.differsVisibly_iff _ _).mpr hdiffers)
    exact .inl ⟨hannounced, hlook.trans (hsame.symm.trans hcurrent)⟩

/-- A transition announces the user if what clients are to see changes. -/
theorem Turns.announces (htruthful : outside.Truthful) (hbacked : held.Backed)
    {transition : Transition} {now timeout : Moment} {result : Except Failure Record}
    (hturns : held.Turns outside user transition now timeout result later) :
    held.Announces user later := by
  cases hturns with
  | fails hfades => exact hfades.toRests.announces
  | keeps hfades _ _ => exact hfades.toRests.announces
  | takes hfades hgives hdecision htakes =>
    have hcurrent := hgives.look_eq htruthful (hbacked.fades hfades)
    have hnext := Transition.userId_of_apply hdecision
    exact .of_rests hfades.toRests (htakes.announces hcurrent hnext)

/-- A sweep announces the user if it restores the user. -/
theorem Restores.announces (hbacked : held.Backed) {now : Moment}
    (hrestores : held.Restores outside user now later) : held.Announces user later := by
  by_cases hpassed : ∃ row, held.row = some row ∧ row.isExpired now = true
  · obtain ⟨row, hrow, hexpired⟩ := hpassed
    cases hrestores.turned row hrow hexpired with
    | superseded hcached hnewer _ =>
      rw [hbacked.isExpired_of_row hrow hexpired hcached] at hnewer
      cases hnewer
    | spread _ _ hturned _ _ hannounced =>
      refine .inr ⟨row.restored.presence, hannounced, ?_, ?_⟩
      · rw [look, hturned]
        rfl
      · rw [look, hrow]
        exact Record.look_restored_ne hexpired
  · have hkept := hrestores.kept fun row hrow =>
      Bool.eq_false_iff.mpr fun hexpired => hpassed ⟨row, hrow, hexpired⟩
    exact hkept.toRests.announces

/-- An operation that does not remove the user announces the user once if what clients are to
see changes, and not otherwise. -/
theorem Undergoes.announces (htruthful : outside.Truthful) (hbacked : held.Backed)
    {operation : Operation} (hkeeps : operation ≠ .remove user) {now timeout : Moment}
    (hundergoes : held.Undergoes outside user now timeout operation later) :
    held.Announces user later := by
  cases hundergoes with
  | untouched hfades => exact hfades.toRests.announces
  | turned hturns => exact hturns.announces htruthful hbacked
  | refilled _ hrefills => exact hrefills.toRests.announces
  | noted hnotes =>
    cases hnotes with
    | ignored hfades => exact hfades.toRests.announces
    | noted _ _ hrests _ => exact hrests.announces
  | notedAway hnotes hturns =>
    have hturned := hturns.announces htruthful (hbacked.notes hnotes)
    cases hnotes with
    | ignored hfades => exact .of_rests hfades.toRests hturned
    | noted _ _ hrests _ => exact .of_rests hrests hturned
  | removed => exact absurd rfl hkeeps
  | cleared => exact Rests.announces ⟨rfl, rfl, rfl⟩
  | restored hrestores => exact hrestores.announces hbacked

end Holding

/-- Events about a user that follow each other look different, and the last one looks as
clients are to see the user. -/
structure Tells (user : String) (told : List PresenceEvent) (look : Look) : Prop where
  /-- Events that follow each other look different. -/
  differs : told.IsChain fun first second => first.look ≠ second.look
  /-- The last event looks as clients are to see the user. -/
  last : lastLook user told = look

/-- What is announced of a user goes on telling clients what they are to see. -/
theorem Tells.announces {user : String} {told events : List PresenceEvent} {held later : Holding}
    (h : Tells user told (held.look user)) (hannounces : held.Announces user later)
    (hevents : later.announced = held.announced ++ events) :
    Tells user (told ++ events) (later.look user) := by
  rcases hannounces with ⟨hannounced, hsame⟩ | ⟨presence, hannounced, hshows, hdiffers⟩
  · have hnone : events = [] := by
      rw [hannounced] at hevents
      exact List.self_eq_append_right.mp hevents
    rw [hnone, List.append_nil, hsame]
    exact h
  · obtain rfl : events = [presence] := by
      rw [hannounced] at hevents
      exact (List.append_cancel_left hevents).symm
    refine ⟨h.differs.append (List.isChain_singleton presence) ?_, ?_⟩
    · intro last hlast first hfirst
      cases hfirst
      have hlook : last.look = held.look user := by
        rw [← h.last, lastLook, hlast]
        rfl
      rw [hlook]
      exact hdiffers.symm
    · rw [lastLook, List.getLast?_concat]
      exact hshows

end PresenceTracker
