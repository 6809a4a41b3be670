import Mathlib.Data.List.Perm.Basic
import PresenceTracker.Engine.Operations
import PresenceTracker.Proofs.Engine.Confined
import PresenceTracker.Proofs.Record.Agreement

/-!
# Operations on different users

Every operation on one user is confined to the user, provided that calls fail alike whenever they
are made, that the cache loses nothing, and that what the node keeps of the user names the user. So
it leaves what the node keeps of all others alone, and does the same on any node that keeps the
same of the user. Operations on two different users may be run in either order.
-/

namespace PresenceTracker

namespace Engine

open Site

variable {outside : Outside} {user : String} {site : Site}

/-- A record that is loaded names its user. -/
theorem load_names (outside : Outside) (hnames : (site.share user).Names user) :
    Ensures (load outside user) site fun result _ =>
      ∀ current, result = .ok current → current.record.userId = user := by
  refine (cacheGet_ensures outside user site).bind fun found looked hcall => ?_
  obtain ⟨hlooked, hfound⟩ := hcall
  split
  · next record =>
    have hcached := hlooked.toRests.cached? (hfound record rfl)
    exact ensures_pure (of_eq_ok (hnames.cached record hcached))
  · refine (storeGet_ensures outside user looked).bind fun result later hcall => ?_
    obtain ⟨-, hread⟩ := hcall
    split
    · next record =>
      have hrow := hread record rfl
      rw [hlooked.store] at hrow
      exact ensures_pure (of_eq_ok (hnames.row record hrow))
    · split
      · exact ensures_pure (of_eq_ok rfl)
      · exact ensures_pure fun _ => nofun
    · exact ensures_pure fun _ => nofun

/-- A load looks at one user's frame and row, and makes up no record of anybody else. -/
theorem load_confined (hsteady : outside.Steady) (hnames : (site.share user).Names user) :
    Confined user (load outside user) site := by
  refine (cacheGet_confined hsteady hnames).bind fun found looked hlooked => ?_
  split
  · exact .pure hlooked _
  · refine (storeGet_confined hsteady hlooked).bind fun result later hlater => ?_
    split
    · exact .pure hlater _
    · split <;> exact .pure hlater _
    · exact .pure hlater _

/-- Caching a record and telling the other nodes is confined to the user of the record. -/
theorem cacheAndSync_confined (hsteady : outside.Steady) {record : Record}
    (hnames : (site.share record.userId).Names record.userId) :
    Confined record.userId (cacheAndSync outside record) site := by
  refine (cachePut_confined hsteady rfl hnames).bind fun result put hput => ?_
  split
  · exact publishToPeers_confined hput _
  · exact (cacheRemove_confined hsteady hput).bind fun _ _ hdropped =>
      publishToPeers_confined hdropped _

/-- A record that is shown to clients leaves everything but the logs alone. -/
theorem broadcast_confined (hnames : (site.share user).Names user) (record : Record) :
    Confined user (broadcast record) site :=
  (showClients_confined hnames _).bind fun _ _ hshown => publish_confined hshown _

/-- A record is written under its user, whose slot is the only one that is asked or changed. -/
theorem persist_confined (hsteady : outside.Steady) {next : Record} (current : Current)
    (hnames : (site.share next.userId).Names next.userId) :
    Confined next.userId (persist outside next.userId current next) site := by
  have hnote : ∀ later : Site, (later.share next.userId).Names next.userId →
      Confined next.userId (do
        notePersisted next.userId
        return (Except.ok () : Except StoreFault Unit)) later := fun later hlater =>
    (notePersisted_confined hlater).bind fun _ _ hnoted => .pure hnoted _
  unfold persist
  split
  · split
    · exact .pure hnames _
    · refine (storeSave_confined hsteady hnames).bind fun result later hlater => ?_
      split
      · exact .pure hlater _
      · exact hnote later hlater
  · refine .get_bind ?_ fun twin halike => by rw [halike.skipsWrite]
    split
    · exact .pure hnames _
    · refine (storeTouch_confined hsteady hnames _).bind fun result later hlater => ?_
      split
      · exact hnote later hlater
      · exact .pure hlater _
      · exact .pure hlater _

/-- What a commit writes, caches and publishes is about the user of the next record. -/
theorem commit_confined (hsteady : outside.Steady) {next : Record} (current : Current)
    (hnames : (site.share next.userId).Names next.userId) :
    Confined next.userId (commit outside next.userId current next) site := by
  unfold commit
  split
  · exact .pure hnames _
  · refine (persist_confined hsteady current hnames).bind fun result written hwritten => ?_
    split
    · exact .pure hwritten _
    · refine (cacheAndSync_confined hsteady hwritten).bind fun _ synced hsynced => ?_
      split
      · exact (broadcast_confined hsynced next).bind fun _ _ hshown => .pure hshown _
      · exact .pure hsynced _

/-- A transition is decided on one user's current record. -/
theorem perform_confined (hsteady : outside.Steady) (hnames : (site.share user).Names user)
    (transition : Transition) : Confined user (perform outside user transition) site := by
  refine (load_confined hsteady hnames).bind_of (load_names outside hnames)
    fun result loaded hresult hloaded => ?_
  split
  · exact .pure hloaded _
  · next current =>
    refine .get_bind ?_ fun twin halike => by rw [halike.clock, halike.settings]
    split
    · exact .pure hloaded _
    · exact .pure hloaded _
    · next next hdecision =>
      obtain rfl : next.userId = user :=
        (Transition.userId_of_apply hdecision).trans (hresult current rfl)
      exact commit_confined hsteady current hloaded

/-- A change works on one user's share, and refuses an identifier before it touches anything. -/
theorem change_confined (hsteady : outside.Steady) (hnames : (site.share user).Names user)
    (transition : Transition) : Confined user (change outside user transition) site := by
  refine .get_bind ?_ fun twin halike => by rw [halike.settings]
  split
  · exact .pure hnames _
  · split
    · exact .pure hnames _
    · exact (perform_confined hsteady hnames transition).bind fun _ _ hperformed =>
        (release_confined hperformed).bind fun _ _ hlast => .pure hlast _

/-- Filling the cache with a record is confined to the user of the record. -/
theorem backfill_confined (hsteady : outside.Steady) {record : Record}
    (hnames : (site.share record.userId).Names record.userId) :
    Confined record.userId (backfill outside record) site := by
  refine (cacheGet_confined hsteady hnames).bind fun found looked hlooked => ?_
  split
  · exact release_confined hlooked
  · exact (cachePut_confined hsteady rfl hlooked).bind fun _ _ hput => release_confined hput

/-- A read takes over one user's row at most. -/
theorem read_confined (hsteady : outside.Steady) (hnames : (site.share user).Names user) :
    Confined user (read outside user) site := by
  refine .get_bind ?_ fun twin halike => by rw [halike.settings]
  split
  · exact .pure hnames _
  · split
    · exact .pure hnames _
    · refine (cacheGet_confined hsteady hnames).bind fun found looked hlooked => ?_
      split
      · exact .pure hlooked _
      · refine (storeGet_confined hsteady hlooked).bind_of (storeGet_ensures outside user looked)
          fun result later hread hlater => ?_
        split
        · next record =>
          obtain rfl : record.userId = user := hlooked.row record (hread.2 record rfl)
          exact (backfill_confined hsteady hlater).bind fun _ _ hfilled => .pure hfilled _
        · split <;> exact .pure hlater _
        · exact .pure hlater _

/-- The default record of a user depends on nothing that a node keeps. -/
theorem readOrDefault_confined (hsteady : outside.Steady)
    (hnames : (site.share user).Names user) :
    Confined user (readOrDefault outside user) site := by
  refine (read_confined hsteady hnames).bind fun result later hlater => ?_
  split <;> exact .pure hlater _

/-- A last activity is set in one user's frame. -/
theorem cacheActivity_confined (hsteady : outside.Steady) (hnames : (site.share user).Names user)
    (moment : Moment) : Confined user (cacheActivity outside user moment) site := by
  refine (load_confined hsteady hnames).bind_of (load_names outside hnames)
    fun result loaded hresult hloaded => ?_
  split
  · exact .pure hloaded _
  · next current =>
    split
    · refine .bind (cachePut_confined hsteady ?_ hloaded) fun _ _ hput => .pure hput _
      exact hresult current rfl
    · exact .pure hloaded _

/-- The change to which a new last activity may lead is about the same user. -/
theorem setLastActivity_confined (hsteady : outside.Steady)
    (hnames : (site.share user).Names user) (moment : Moment) :
    Confined user (setLastActivity outside user moment) site := by
  refine .get_bind ?_ fun twin halike => by rw [halike.settings]
  split
  · exact .pure hnames _
  · split
    · exact .pure hnames _
    · refine (cacheActivity_confined hsteady hnames moment).bind fun known noted hnoted => ?_
      refine (release_confined hnoted).bind fun _ later hlater => ?_
      split
      · exact .pure hlater _
      · exact .pure hlater _
      · exact .pure hlater _
      · exact (change_confined hsteady hlater _).bind fun _ _ hlast => .pure hlast _

/-- A deletion takes one user's row, frame and slot. -/
theorem delete_confined (hsteady : outside.Steady) (hnames : (site.share user).Names user) :
    Confined user (delete outside user) site := by
  refine (storeDelete_confined hsteady hnames).bind fun result deleted hdeleted => ?_
  split
  · exact .pure hdeleted _
  · refine (cacheRemove_confined hsteady hdeleted).bind fun _ dropped hdropped => ?_
    refine (publishToPeers_confined hdropped _).bind fun _ told htold => ?_
    exact (forget_confined htold).bind fun _ _ hlast => .pure hlast _

/-- A removal is a deletion of one user and tells the peers of that one only. -/
theorem remove_confined (hsteady : outside.Steady) (hnames : (site.share user).Names user) :
    Confined user (remove outside user) site := by
  refine .get_bind ?_ fun twin halike => by rw [halike.settings]
  split
  · exact .pure hnames _
  · split
    · exact .pure hnames _
    · exact (delete_confined hsteady hnames).bind fun _ _ hdeleted =>
        (release_confined hdeleted).bind fun _ _ hlast => .pure hlast _

end Engine

namespace Operation

/-- The user that an operation is about, if it is about one user. -/
def user? : Operation → Option String
  | change user _ | read user | readOrDefault user | setLastActivity user _ | remove user =>
    some user
  | readMany _ | clearCaches | expire => none

variable {outside : Outside} {site : Site} {user other : String} {operation : Operation}

/-- An operation about one user is confined to the user. -/
theorem run_confined (hsteady : outside.Steady) (huser : operation.user? = some user)
    (hnames : (site.share user).Names user) : Confined user (operation.run outside) site := by
  cases operation with
  | change subject transition =>
    cases huser
    exact (Engine.change_confined hsteady hnames transition).bind fun _ _ h => .pure h _
  | read subject =>
    cases huser
    exact (Engine.read_confined hsteady hnames).bind fun _ _ h => .pure h _
  | readOrDefault subject =>
    cases huser
    exact (Engine.readOrDefault_confined hsteady hnames).bind fun _ _ h => .pure h _
  | setLastActivity subject moment =>
    cases huser
    exact (Engine.setLastActivity_confined hsteady hnames moment).bind fun _ _ h => .pure h _
  | remove subject =>
    cases huser
    exact (Engine.remove_confined hsteady hnames).bind fun _ _ h => .pure h _
  | readMany | clearCaches | expire => cases huser

/-- Runs two operations one after the other. -/
def runBoth (outside : Outside) (first second : Operation) :
    StateM Site (Except Failure Answer × Except Failure Answer) := do
  let before ← first.run outside
  let after ← second.run outside
  return (before, after)

end Operation

/-- Two nodes differ at most in the order in which they have made calls and let things out. -/
structure Site.SameUpToOrder (site twin : Site) : Prop where
  /-- The clocks read the same. -/
  clock : twin.clock = site.clock
  /-- The settings are the same. -/
  settings : twin.settings = site.settings
  /-- The topics are the same. -/
  topic : twin.topic = site.topic
  /-- The rows are the same. -/
  store : twin.store = site.store
  /-- The caches hold the same. -/
  cache : twin.cache = site.cache
  /-- The slots are the same. -/
  slots : twin.slots = site.slots
  /-- As many look-ups were counted. -/
  tally : twin.tally = site.tally
  /-- As many calls were made. -/
  calls : twin.calls = site.calls
  /-- The same calls to the store were made. -/
  asked : twin.asked.Perm site.asked
  /-- The same messages were published. -/
  published : twin.published.Perm site.published
  /-- The same events were shown. -/
  shown : twin.shown.Perm site.shown

/-- Changes of what is kept of two users may be made in either order. -/
theorem Site.patch_comm (site : Site) {user other : String} (hne : user ≠ other)
    (share theirs : Share) (trace more : Trace) :
    ((site.patch other theirs more).patch user share trace).SameUpToOrder
      ((site.patch user share trace).patch other theirs more) where
  clock := rfl
  settings := rfl
  topic := rfl
  store := Table.put_comm site.store hne share.row theirs.row
  cache := Table.put_comm site.cache hne share.frame theirs.frame
  slots := Table.put_comm site.slots hne share.slot theirs.slot
  tally := Tally.add_right_comm site.tally trace.tally more.tally
  calls := Nat.add_right_comm site.calls trace.calls more.calls
  asked := by
    simp only [patch, List.append_assoc]
    exact List.perm_append_comm.append_left _
  published := by
    simp only [patch, List.append_assoc]
    exact List.perm_append_comm.append_left _
  shown := by
    simp only [patch, List.append_assoc]
    exact List.perm_append_comm.append_left _

namespace Operation

variable {outside : Outside} {site : Site} {user : String} {operation : Operation}

/-- Two operations in sequence give both results and leave what the second one leaves. -/
theorem run_runBoth {first second : Operation} {before after : Except Failure Answer}
    {later last : Site} (hfirst : (first.run outside).run site = (before, later))
    (hsecond : (second.run outside).run later = (after, last)) :
    (runBoth outside first second).run site = ((before, after), last) := by
  have hboth : Ensures (runBoth outside first second) site fun answers final =>
      (answers, final) = ((before, after), last) := by
    refine (ensures_run (first.run outside) site).bind fun given between hgiven => ?_
    cases hfirst.symm.trans hgiven
    refine (ensures_run (second.run outside) later).bind fun taken final htaken => ?_
    cases hsecond.symm.trans htaken
    exact ensures_pure rfl
  exact hboth

/-- Where calls fail alike whenever they are made and the cache loses nothing, an operation about
one user, of whom the node keeps a row and a cached record that name the user if there are any,
leaves what is kept of others alone; it gives the same and does the same to the user on every node
that is alike, and lets the same out; and it may change places with an operation about another
user. What is kept of the user goes on naming the user. -/
theorem independent_of_others (hsteady : outside.Steady) (huser : operation.user? = some user)
    (hnames : (site.share user).Names user) :
    Ensures (operation.run outside) site fun result later =>
      (later.share user).Names user ∧
      (∀ other, other ≠ user → later.share other = site.share other) ∧
      (∀ twin, site.Alike user twin → Ensures (operation.run outside) twin fun given last =>
        given = result ∧ last.share user = later.share user ∧
          ∃ published shown, later.published = site.published ++ published ∧
            last.published = twin.published ++ published ∧
            later.shown = site.shown ++ shown ∧ last.shown = twin.shown ++ shown) ∧
      ∀ (second : Operation) (other : String), second.user? = some other → other ≠ user →
        (site.share other).Names other →
        Ensures (runBoth outside operation second) site fun forth there =>
          Ensures (runBoth outside second operation) site fun back here =>
            forth = back.swap ∧ here.SameUpToOrder there := by
  obtain ⟨value, share, trace, hnamed, hrun⟩ := run_confined hsteady huser hnames
  rw [Ensures, hrun site (.refl user site)]
  refine ⟨?_, fun other hother => ?_, fun twin halike => ?_,
    fun second other hsecond hother hkept => ?_⟩
  · rw [Site.share_patch, if_pos rfl]
    exact hnamed
  · rw [Site.share_patch, if_neg hother.symm]
  · rw [Ensures, hrun twin halike]
    refine ⟨rfl, ?_, trace.published, trace.shown, rfl, rfl, rfl, rfl⟩
    simp only [Site.share_patch, if_true]
  · obtain ⟨answer, theirs, more, -, hrun'⟩ := run_confined hsteady hsecond hkept
    rw [Ensures, run_runBoth (hrun site (.refl user site)) (hrun' _ (.of_patch hother.symm ..)),
      Ensures, run_runBoth (hrun' site (.refl other site)) (hrun _ (.of_patch hother ..))]
    exact ⟨rfl, Site.patch_comm site hother.symm share theirs trace more⟩

/-- The record of a user who came online. -/
def bob : Record := ⟨"bob", .online, false, 5000, none, none, none⟩

/-- A node with the row of one user, who is cached. -/
def bobsNode : Site where
  clock := 6000
  store := (∅ : Store).insert "bob" bob
  cache := (∅ : Table Bytes).insert "bob" (FrameCodec.record.encode bob)

/-- Another user may come online before or after this one does not want to be disturbed. -/
theorem online_beside_dnd :
    (bobsNode.share "bob").Names "bob" ∧
      Ensures ((change "ada" (.online true)).run .calm) bobsNode fun result later =>
        result = .ok (.record ⟨"ada", .online, false, 6000, none, none, none⟩) ∧
          later.share "bob" = bobsNode.share "bob" ∧
          Ensures (runBoth .calm (change "ada" (.online true)) (change "bob" .dnd)) bobsNode
            fun forth there =>
              Ensures (runBoth .calm (change "bob" .dnd) (change "ada" (.online true))) bobsNode
                fun back here => forth = back.swap ∧ here.SameUpToOrder there := by
  have hada : bobsNode.share "ada" = ⟨none, none, none⟩ := by decide +kernel
  have hbob : bobsNode.share "bob" = ⟨some bob, some (FrameCodec.record.encode bob), none⟩ := by
    decide +kernel
  have hbobNamed : (bobsNode.share "bob").Names "bob" := by
    rw [hbob]
    refine ⟨fun row hrow => ?_, fun record hcached => ?_⟩
    · cases hrow
      rfl
    · rw [Share.cached?, Option.bind_some, FrameCodec.decode_encode_record] at hcached
      cases hcached
      rfl
  have hadaNamed : (bobsNode.share "ada").Names "ada" := by
    rw [hada]
    exact ⟨fun _ hrow => (by cases hrow), fun _ hcached => (by cases hcached)⟩
  refine ⟨hbobNamed, ?_⟩
  have huser : (change "ada" (.online true)).user? = some "ada" := rfl
  refine ((ensures_run _ _).and
    (independent_of_others Outside.calm_steady huser hadaNamed)).mono fun result later hcall => ?_
  obtain ⟨hrun, -, hothers, -, hcommutes⟩ := hcall
  have hresult : (((change "ada" (.online true)).run .calm).run bobsNode).1 =
      .ok (.record ⟨"ada", .online, false, 6000, none, none, none⟩) := by decide +kernel
  rw [hrun] at hresult
  exact ⟨hresult, hothers "bob" (by decide), hcommutes _ "bob" rfl (by decide) hbobNamed⟩

/-- The node with the record of the one user cached under the name of another one as well. -/
def mislabelled : Site :=
  { bobsNode with cache := bobsNode.cache.insert "ada" (FrameCodec.record.encode bob) }

/-- A cached record that names another user has an operation change what is kept of the other
one: the last activity that is set of the one user goes into the entry of the other. -/
theorem mislabelled_entry_reaches_other :
    ¬∀ (outside : Outside) (operation : Operation) (site : Site) (user other : String),
      outside.Steady → operation.user? = some user → other ≠ user →
      Ensures (operation.run outside) site fun _ later => later.share other = site.share other := by
  intro hclaim
  have hleaves : (((setLastActivity "ada" 4000).run .calm).run mislabelled).2.share "bob" =
      mislabelled.share "bob" :=
    hclaim .calm (setLastActivity "ada" 4000) mislabelled "ada" "bob" Outside.calm_steady rfl
      (by decide)
  revert hleaves
  decide +kernel

end Operation

end PresenceTracker
