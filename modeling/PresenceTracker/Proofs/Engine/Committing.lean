import PresenceTracker.Proofs.Engine.Effects
import PresenceTracker.Proofs.Engine.History

/-!
# Changes that are committed

A transition comes to a change of its user's record, unless it is refused, cannot load the
record, or leaves it as it is. A change that is committed writes the row in full where it is
needed, and otherwise the activity alone, outside of the window; the node remembers whether the
write succeeded.
-/

namespace PresenceTracker

/-- A change of a user's record that has been decided on and is about to be committed. -/
structure Pending where
  /-- The user. -/
  user : String
  /-- The record as it was loaded. -/
  current : Current
  /-- The record that is to take its place. -/
  next : Record
  /-- The node at that moment. -/
  site : Site

namespace Pending

variable {outside : Outside} {pending : Pending} {touches : List StoreCall}

/-- Whether the change needs a full write. -/
def isFull (pending : Pending) : Bool := pending.current.needsFullSave pending.next

/-- Whether a full write of the row is made and succeeds. -/
def saves (outside : Outside) (pending : Pending) : Bool :=
  pending.isFull && pending.next.validate.isOk &&
    ((Engine.storeSave outside pending.next).run pending.site).1.isOk

/-- Whether a write of the activity succeeds if it is made. -/
def touchWorks (outside : Outside) (pending : Pending) : Bool :=
  ((Engine.storeTouch outside pending.next.userId pending.next.lastActivity).run
    pending.site).1.isOk

/-- The write of the activity that the change calls for, unless the window is open. -/
def due (pending : Pending) : List StoreCall :=
  if pending.isFull || pending.site.skipsWrite pending.user then []
  else [.touch pending.user pending.next.lastActivity]

/-- What the change does to the user's row, given the writes of the activity that are made. -/
def mark (outside : Outside) (pending : Pending) (touches : List StoreCall) (user : String) :
    Mark :=
  if pending.user = user &&
      (pending.saves outside || !touches.isEmpty && pending.touchWorks outside) then .written
  else .kept

/-- A commit that writes no row keeps every mark. -/
theorem mark_of_not_writes (hsaves : pending.saves outside = false)
    (htouches : touches = [] ∨ pending.touchWorks outside = false) :
    pending.mark outside touches = fun _ => .kept := by
  funext user
  rw [mark, hsaves, if_neg]
  rcases htouches with rfl | hfails
  · simp
  · simp [hfails]

/-- A commit that writes a row marks its user as written, and nobody else. -/
theorem mark_of_writes
    (h : pending.saves outside = true ∨ touches ≠ [] ∧ pending.touchWorks outside = true) :
    pending.mark outside touches = fun user => if pending.user = user then .written else .kept := by
  funext user
  rw [mark]
  rcases h with hsaves | ⟨htouches, hworks⟩
  · simp [hsaves]
  · simp [htouches, hworks]

/-- Where the whole row is written no write of just the activity is due. -/
theorem due_of_full (h : pending.isFull = true) : pending.due = [] := by
  rw [due, h, Bool.true_or, if_pos rfl]

/-- Where just the activity is written the whole row is not. -/
theorem saves_of_partial (h : pending.isFull = false) : pending.saves outside = false := by
  rw [saves, h, Bool.false_and, Bool.false_and]

end Pending

/-- What the committing of a change, if there is one, leaves behind. -/
def Site.Commits (outside : Outside) (site : Site) (pending? : Option Pending) (later : Site) :
    Prop :=
  match pending? with
  | none => site.Idles later
  | some pending => site.Remembers (pending.mark outside pending.due) pending.due later

/-- After a commit the node may idle. -/
theorem Site.Commits.idles {outside : Outside} {site later final : Site}
    {pending? : Option Pending} (h : site.Commits outside pending? later)
    (h' : later.Idles final) : site.Commits outside pending? final := by
  cases pending? with
  | none => exact Remembers.idles h h'
  | some pending => exact Remembers.idles h h'

/-- Before a commit the node may idle. -/
theorem Site.Commits.after_idles {outside : Outside} {site later final : Site}
    {pending? : Option Pending} (h : site.Idles later)
    (h' : later.Commits outside pending? final) : site.Commits outside pending? final := by
  cases pending? with
  | none => exact h.idles h'
  | some pending => exact Remembers.after_idles h h'

/-- The change that a transition of a user comes to, if the record can be loaded and the
transition makes another one of it. -/
def Site.pendingStep (outside : Outside) (site : Site) (user : String) (transition : Transition) :
    Option Pending :=
  match (Engine.load outside user).run site with
  | (.error _, _) => none
  | (.ok current, loaded) =>
    match transition.decision current loaded.clock loaded.settings.awayTimeoutMs with
    | .error _ => none
    | .ok .keep => none
    | .ok (.apply next) =>
      if current.persisted && next = current.record then none
      else some ⟨user, current, next, loaded⟩

/-- The change that a transition comes to if tracking is enabled and the user's identifier is
good. -/
def Site.pendingChange (outside : Outside) (site : Site) (user : String)
    (transition : Transition) : Option Pending :=
  if !site.settings.enabled then none
  else
    match Record.checkUser user with
    | .error _ => none
    | .ok () => site.pendingStep outside user transition

/-- The change that setting the last activity of a user comes to: a known user may be found to
be away. -/
def Site.pendingAway (outside : Outside) (site : Site) (user : String) (moment : Moment) :
    Option Pending :=
  if !site.settings.enabled then none
  else
    match Record.checkUser user with
    | .error _ => none
    | .ok () =>
      match (Engine.cacheActivity outside user moment).run site with
      | (.ok true, noted) =>
        ((Engine.release user).run noted).2.pendingChange outside user (.away false)
      | _ => none

/-- The change of a user's record that an operation comes to. -/
def Operation.pending (outside : Outside) (operation : Operation) (site : Site) : Option Pending :=
  match operation with
  | change user transition => site.pendingChange outside user transition
  | setLastActivity user moment => site.pendingAway outside user moment
  | _ => none

/-- A change that a transition comes to was loaded and decided on. -/
theorem Site.pendingChange_eq_some {outside : Outside} {site : Site} {user : String}
    {transition : Transition} {pending : Pending}
    (h : site.pendingChange outside user transition = some pending) :
    pending.user = user ∧
      (Engine.load outside user).run site = (.ok pending.current, pending.site) ∧
      transition.decision pending.current pending.site.clock
        pending.site.settings.awayTimeoutMs = .ok (.apply pending.next) := by
  unfold pendingChange at h
  split at h
  · cases h
  · split at h
    · cases h
    · unfold pendingStep at h
      split at h
      · cases h
      · next current loaded hload =>
        split at h
        · cases h
        · cases h
        · next next hdecision =>
          split at h
          · cases h
          · cases h
            exact ⟨rfl, hload, hdecision⟩

/-- A change that setting the last activity comes to is that of a transition after the activity
was noted. -/
theorem Site.pendingAway_eq_some {outside : Outside} {site : Site} {user : String}
    {moment : Moment} {pending : Pending}
    (h : site.pendingAway outside user moment = some pending) :
    ((Engine.release user).run
      ((Engine.cacheActivity outside user moment).run site).2).2.pendingChange outside user
        (.away false) = some pending := by
  unfold pendingAway at h
  split at h
  · cases h
  · split at h
    · cases h
    · split at h
      · next noted hnoted =>
        rw [hnoted]
        exact h
      · cases h

/-- Rows and cached records stay under their users, whichever calls fail. -/
theorem Site.filed_frame (outside : Outside) :
    FullFrame outside fun site later => site.Filed → later.Filed where
  refl _ h := h
  trans h h' hfiled := h' (h hfiled)
  fades h _ := h.works.filed
  asks _ _ h _ := h.works.filed
  hold _ record hfiled := hfiled.hold record
  drop _ user hfiled := hfiled.drop user
  clear site hfiled := ⟨hfiled.keyed, fun user record hcached => by
    rw [cached?_empty rfl] at hcached
    cases hcached⟩
  tell _ _ _ _ hfiled := ⟨hfiled.keyed, hfiled.cached⟩
  broadcast _ _ hfiled := ⟨hfiled.keyed, hfiled.cached⟩
  release site user := by
    refine ensures_modify ?_
    split <;> exact fun hfiled => ⟨hfiled.keyed, hfiled.cached⟩
  writes _ store h _ hkeyed hfiled := (h.works.filed hfiled).withStore (hkeyed hfiled.keyed)
  slots _ _ hfiled := ⟨hfiled.keyed, hfiled.cached⟩

namespace Engine

open Site

variable {outside : Outside} {site : Site}

/-- Noting a write of one user's row remembers it. -/
theorem notePersisted_remembers {call : StoreCall} {faded : Site} {store : Store} {user : String}
    (hfades : site.Fades outside faded) (hasked : faded.asked = site.asked ++ [call])
    (hrows : ∀ other : String, user ≠ other → site.store[other]? = none → store[other]? = none) :
    Ensures (notePersisted user) (faded.withStore store) fun _ later => site.Remembers
      (fun other => if user = other then .written else .kept) ([call].filter StoreCall.touches)
      later := by
  refine ensures_modify ⟨hfades.clock, hfades.settings, fun other => .inl ?_,
    fun other hkept => ?_, fun other hremoved => ?_, [call], hasked, rfl⟩
  · show (faded.slots.insert user faded.clock)[other]? = _
    rw [Table.get?_insert, hfades.slots, hfades.clock]
    split <;> rfl
  · split at hkept
    · cases hkept
    · next hother => exact hrows other hother
  · split at hremoved <;> cases hremoved

/-- A change that needs a full write writes the row if it can. -/
theorem persist_remembers_of_full {pending : Pending} (hnext : pending.next.userId = pending.user)
    (hfull : pending.isFull = true) :
    Ensures (persist outside pending.user pending.current pending.next) pending.site fun _ later =>
      pending.site.Remembers (pending.mark outside []) [] later := by
  unfold persist
  rw [if_pos (show pending.current.needsFullSave pending.next = true from hfull)]
  split
  · next failure hvalidate =>
    have hsaves : pending.saves outside = false := by
      rw [Pending.saves, hvalidate]
      exact congrArg (· && _) (Bool.and_false _)
    rw [Pending.mark_of_not_writes hsaves (.inl rfl)]
    exact ensures_pure (Idles.refl pending.site)
  · next hvalidate =>
    have hcalled := ((storeSave_ensures outside pending.next pending.site).and
      (storeCall_asked outside (.save pending.next) _ pending.site)).and
        (ensures_run (storeSave outside pending.next) pending.site)
    refine hcalled.bind fun result later hcall => ?_
    obtain ⟨⟨⟨faded, hfades, hsaved⟩, hasked⟩, hrun⟩ := hcall
    obtain ⟨saved, hsave, rfl, rfl⟩ | ⟨⟨fault, rfl⟩, rfl⟩ := hsaved
    · have hsaves : pending.saves outside = true := by
        rw [Pending.saves, hfull, hvalidate, hrun]
        rfl
      rw [Pending.mark_of_writes (.inl hsaves)]
      refine (notePersisted_remembers hfades hasked fun other hother hnone => ?_).bind
        fun _ _ hnoted => ensures_pure hnoted
      rw [Store.get?_save hsave, hnext, if_neg hother]
      exact hnone
    · have hsaves : pending.saves outside = false := by
        rw [Pending.saves, hrun]
        exact Bool.and_false _
      rw [Pending.mark_of_not_writes hsaves (.inl rfl)]
      exact ensures_pure (hfades.remembers hasked)

/-- A change that needs no full write writes the activity, unless the window is open. -/
theorem persist_remembers_of_partial {pending : Pending}
    (hnext : pending.next.userId = pending.user) (hpartial : pending.isFull = false) :
    Ensures (persist outside pending.user pending.current pending.next) pending.site fun _ later =>
      pending.site.Remembers (pending.mark outside pending.due) pending.due later := by
  have hsaves : pending.saves outside = false := Pending.saves_of_partial hpartial
  unfold persist
  rw [if_neg (show ¬pending.current.needsFullSave pending.next = true from
    Bool.eq_false_iff.mp hpartial)]
  refine ensures_get_bind ?_
  split
  · next hskips =>
    have hdue : pending.due = [] := by rw [Pending.due, hskips, Bool.or_true, if_pos rfl]
    rw [hdue, Pending.mark_of_not_writes hsaves (.inl rfl)]
    exact ensures_pure (Idles.refl pending.site)
  · next hwrites =>
    have hdue : pending.due = [.touch pending.user pending.next.lastActivity] := by
      rw [Pending.due, hpartial, Bool.eq_false_iff.mpr hwrites]
      rfl
    have hcalled := ((storeTouch_ensures outside pending.next.userId pending.next.lastActivity
      pending.site).and (storeCall_asked outside
        (.touch pending.next.userId pending.next.lastActivity) _ pending.site)).and
          (ensures_run (storeTouch outside pending.next.userId pending.next.lastActivity)
            pending.site)
    refine hcalled.bind fun result later hcall => ?_
    obtain ⟨⟨⟨faded, hfades, ⟨rfl, rfl⟩ | ⟨fault, rfl, -, rfl⟩⟩, hasked⟩, hrun⟩ := hcall
    · have hworks : pending.touchWorks outside = true := by rw [Pending.touchWorks, hrun]; rfl
      rw [hnext] at hasked
      rw [hdue, Pending.mark_of_writes (.inr ⟨by simp, hworks⟩)]
      refine (notePersisted_remembers hfades hasked fun other _ hnone => ?_).bind
        fun _ _ hnoted => ensures_pure hnoted
      rw [Store.get?_touch, hnone]
      split <;> rfl
    · have hfails : pending.touchWorks outside = false := by rw [Pending.touchWorks, hrun]; rfl
      rw [hnext] at hasked
      rw [hdue, Pending.mark_of_not_writes hsaves (.inr hfails)]
      have hlater : pending.site.Remembers (fun _ => .kept)
          [.touch pending.user pending.next.lastActivity] later := hfades.remembers hasked
      cases fault with
      | refused failure => exact ensures_pure hlater
      | killed => exact ensures_pure hlater

/-- Persisting a change remembers what it wrote, and writes the activity alone where it is
due. -/
theorem persist_remembers {pending : Pending} (hnext : pending.next.userId = pending.user) :
    Ensures (persist outside pending.user pending.current pending.next) pending.site fun _ later =>
      pending.site.Remembers (pending.mark outside pending.due) pending.due later := by
  cases hfull : pending.isFull with
  | true =>
    rw [Pending.due_of_full hfull]
    exact persist_remembers_of_full hnext hfull
  | false => exact persist_remembers_of_partial hnext hfull

/-- Committing a change that is none leaves nothing behind, and any other change what it wrote. -/
theorem commit_remembers (outside : Outside) (pending : Pending)
    (hnext : pending.next.userId = pending.user)
    (hother : (pending.current.persisted && pending.next = pending.current.record) = false) :
    Ensures (commit outside pending.user pending.current pending.next) pending.site fun _ later =>
      pending.site.Remembers (pending.mark outside pending.due) pending.due later := by
  unfold commit
  rw [if_neg (Bool.eq_false_iff.mp hother)]
  refine (persist_remembers hnext).bind fun result written hwritten => ?_
  split
  · exact ensures_pure hwritten
  · refine (cacheAndSync_frame (idles_frame outside) pending.next written).bind
      fun _ synced hsynced => ?_
    have hlater := hwritten.idles hsynced
    split
    · exact (broadcast_frame (idles_frame outside) pending.next synced).bind fun _ _ hshown =>
        ensures_pure (hlater.idles hshown)
    · exact ensures_pure hlater

/-- A transition that is performed commits the change that it comes to. -/
theorem perform_commits (hfiled : site.Filed) (user : String) (transition : Transition) :
    Ensures (perform outside user transition) site fun _ later =>
      site.Commits outside (site.pendingStep outside user transition) later := by
  have hload := ((load_frame (idles_frame outside) user site).and (load_gives hfiled user)).and
    (ensures_run (load outside user) site)
  refine hload.bind fun result loaded hcall => ?_
  obtain ⟨⟨hloaded, -, hgives⟩, hrun⟩ := hcall
  rw [Site.pendingStep, hrun]
  cases result with
  | error fault => exact ensures_pure hloaded
  | ok current =>
    refine ensures_get_bind ?_
    dsimp only
    cases hdecision : transition.decision current loaded.clock loaded.settings.awayTimeoutMs with
    | error failure => exact ensures_pure hloaded
    | ok decision =>
      cases decision with
      | keep => exact ensures_pure hloaded
      | apply next =>
        have huser := (Transition.userId_of_apply hdecision).trans (hgives current rfl).2
        dsimp only
        split
        · next hsame =>
          unfold commit
          rw [if_pos hsame]
          exact ensures_pure hloaded
        · next hother =>
          have hcommit := commit_remembers outside ⟨user, current, next, loaded⟩ huser
            (Bool.eq_false_iff.mpr hother)
          exact hcommit.mono fun _ _ hlater => Remembers.after_idles hloaded hlater

/-- A transition commits the change that it comes to. -/
theorem change_commits (hfiled : site.Filed) (user : String) (transition : Transition) :
    Ensures (change outside user transition) site fun _ later =>
      site.Commits outside (site.pendingChange outside user transition) later := by
  unfold Site.pendingChange
  refine ensures_get_bind ?_
  cases henabled : site.settings.enabled with
  | false => exact ensures_pure (Idles.refl site)
  | true =>
    rw [if_neg (by simp), if_neg (by simp)]
    cases hcheck : Record.checkUser user with
    | error failure => exact ensures_pure (Idles.refl site)
    | ok _ =>
      refine (perform_commits hfiled user transition).bind fun result later hlater => ?_
      exact (release_idles later user).bind fun _ _ hlast => ensures_pure (hlater.idles hlast)

/-- Setting the last activity commits the change that it comes to. -/
theorem setLastActivity_commits (hfiled : site.Filed) (user : String) (moment : Moment) :
    Ensures (setLastActivity outside user moment) site fun _ later =>
      site.Commits outside (site.pendingAway outside user moment) later := by
  unfold Site.pendingAway
  refine ensures_get_bind ?_
  cases henabled : site.settings.enabled with
  | false => exact ensures_pure (Idles.refl site)
  | true =>
    rw [if_neg (by simp), if_neg (by simp)]
    cases hcheck : Record.checkUser user with
    | error failure => exact ensures_pure (Idles.refl site)
    | ok _ =>
      have hnote := ((cacheActivity_frame (idles_frame outside) user moment site).and
        (cacheActivity_frame (filed_frame outside).toFrame user moment site)).and
          (ensures_run (cacheActivity outside user moment) site)
      refine hnote.bind fun known noted hcall => ?_
      obtain ⟨⟨hnoted, hkept⟩, hrun⟩ := hcall
      have hrelease := ((release_idles noted user).and
        ((filed_frame outside).release noted user)).and (ensures_run (release user) noted)
      refine hrelease.bind fun _ freed hcall => ?_
      obtain ⟨⟨hfreed, hstill⟩, hrelease⟩ := hcall
      have hlater := hnoted.idles hfreed
      rw [hrun]
      match known with
      | .error (.refused failure) => exact ensures_pure hlater
      | .error .killed => exact ensures_pure hlater
      | .ok false => exact ensures_pure hlater
      | .ok true =>
        dsimp only
        rw [hrelease]
        exact (change_commits (hstill (hkept hfiled)) user (.away false)).bind fun _ _ hlast =>
          ensures_pure (Commits.after_idles hlater hlast)

end Engine

end PresenceTracker
