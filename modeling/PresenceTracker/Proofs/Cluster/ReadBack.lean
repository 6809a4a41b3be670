import PresenceTracker.Proofs.Cluster.Network
import PresenceTracker.Proofs.Engine.Marking
import PresenceTracker.Proofs.Engine.Running
import PresenceTracker.Proofs.Engine.Serving

/-!
# Reading what was written, all over a network

Whatever has happened in a network, its rows and cached records stand under their users. So once
a node is served by its cache and by reads of the store, a transition that succeeds on it gives
what a read on it gives right afterwards. If the transition changed the record and the nodes have
caches of their own, then the changed record is under way to every other node, and whenever one
of them handles it, however much has happened in between, a read there gives the same record.
-/

namespace PresenceTracker

/-- An event of another node leaves records under their users. -/
theorem Engine.receive_filed {site : Site} (hfiled : site.Filed) (outside : Outside)
    (event : Event) :
    Ensures (receive outside event) site fun _ later => later.Filed := by
  have hframe := (Site.filed_frame outside).toFrame
  cases event with
  | updateStatus record =>
    exact (cachePut_frame hframe record site).bind fun _ _ hput => ensures_pure (hput hfiled)
  | presenceChanged presence => exact ensures_modify ⟨hfiled.keyed, hfiled.cached⟩
  | invalidateCache topic key =>
    refine ensures_get_bind ?_
    split
    · cases key with
      | some gone =>
        exact (cacheRemove_frame hframe gone site).bind fun _ _ hdropped =>
          ensures_pure (hdropped hfiled)
      | none =>
        exact (cachePurge_frame hframe site).bind fun _ _ hcleared =>
          ensures_pure (hcleared hfiled)
    · exact ensures_pure hfiled

namespace Network

variable {ι κ : Type}

/-- Rows and cached records stand under their users. -/
structure Filed (network : Network ι κ) : Prop where
  /-- Every row stands under its user. -/
  keyed : network.store.Keyed
  /-- Every cached record stands under its user. -/
  cached : ∀ node user record, (network.site node).cached? user = some record →
    record.userId = user

theorem Fresh.filed {network : Network ι κ} (h : network.Fresh) : network.Filed where
  keyed := h.keyed
  cached node user record hcached := by
    rw [Site.cached?_empty (h.caches (network.home node))] at hcached
    cases hcached

namespace Filed

variable {network : Network ι κ}

theorem site (h : network.Filed) (node : ι) : (network.site node).Filed := ⟨h.keyed, h.cached node⟩

variable [DecidableEq ι] [DecidableEq κ]

/-- A node may leave any site where rows and cached records stand under their users. -/
theorem put (h : network.Filed) (worker : ι) {later : Site} (hlater : later.Filed) :
    (network.put worker later).Filed where
  keyed := hlater.keyed
  cached node user record hcached := by
    rw [cached?_put] at hcached
    split at hcached
    · exact hlater.cached user record hcached
    · exact h.cached node user record hcached

/-- Every step leaves records under their users, whichever calls fail. -/
theorem step (h : network.Filed) (outside : ι → Outside) (step : NetworkStep ι) :
    (network.step outside step).Filed := by
  cases step with
  | operate worker operation =>
    have hrun := Operation.run_frame (Site.filed_frame (outside worker)) operation
      (network.site worker)
    exact h.put worker (hrun (h.site worker))
  | incident worker incident => exact h.put worker (incident.filed_befall (h.site worker))
  | deliver sender receiver place =>
    show (network.deliver outside sender receiver place).Filed
    unfold Network.deliver
    split
    · next event hevent =>
      have hkept : (network.withFlight sender receiver
        ((network.flight sender receiver).eraseIdx place)).Filed := ⟨h.keyed, h.cached⟩
      have hreceive := Engine.receive_filed (h.site receiver) (outside receiver) event
      exact hkept.put receiver hreceive
    · exact h
  | lose sender receiver place => exact ⟨h.keyed, h.cached⟩
  | duplicate sender receiver place => exact ⟨h.keyed, h.cached⟩

end Filed

variable [DecidableEq ι] [DecidableEq κ]

/-- Whatever has happened, records are under their users. -/
theorem Reaches.filed {outside : ι → Outside} {allows : Network ι κ → NetworkStep ι → Prop}
    {start network : Network ι κ} (h : Reaches outside allows start network)
    (hstart : start.Filed) : network.Filed :=
  h.keeps Filed hstart fun _ step _ hfiled => hfiled.step outside step

/-- A node that has worked sees what it saw at the end of its work. -/
theorem seen_put_self (network : Network ι κ) (worker : ι) (site : Site) (user : String) :
    ((network.put worker site).site worker).seen user = site.seen user := by
  rw [site_put_self]
  rfl

/-- What a node reads of a user is what it sees, if it is served. -/
theorem operate_readOrDefault {outside : ι → Outside} {network : Network ι κ} {worker : ι}
    (hserves : (outside worker).Serves) (hkeyed : network.store.Keyed) {user : String}
    {record : Record} (hseen : (network.site worker).seen user = record) :
    (network.operate outside worker (.readOrDefault user)).1 = .ok (.record record) := by
  have hkeyed' : (network.site worker).store.Keyed := hkeyed
  have hread : Ensures (Operation.run (outside worker) (.readOrDefault user))
      (network.site worker) fun result _ => result = .ok (.record record) := by
    refine (Engine.readOrDefault_seen hserves hkeyed' user).bind fun read later hread => ?_
    rw [hread, hseen]
    exact ensures_pure rfl
  exact hread

/-- A transition on a node gives what it gives, and leaves the node as it leaves it. -/
theorem operate_change {outside : ι → Outside} {network changed : Network ι κ} {worker : ι}
    {user : String} {transition : Transition} {answer : Except Failure Answer}
    (h : network.operate outside worker (.change user transition) = (answer, changed)) :
    ∃ result later, (Engine.change (outside worker) user transition).run (network.site worker) =
      (result, later) ∧ answer = result.map .record ∧ changed = network.put worker later := by
  obtain ⟨rfl, rfl⟩ := Prod.mk.inj h
  exact ⟨_, _, rfl, rfl, rfl⟩

/-- A node that is served and has handled a record that it was told of reads the record. -/
theorem read_after_update {outside : ι → Outside} {network : Network ι κ} (hfiled : network.Filed)
    {sender receiver : ι} (hserves : (outside receiver).Serves)
    (henabled : (network.node receiver).settings.enabled = true) {record : Record}
    (hvalid : Record.checkUser record.userId = .ok ()) {place : Nat}
    (hplace : (network.flight sender receiver)[place]? = some (.updateStatus record)) :
    ((network.deliver outside sender receiver place).operate outside receiver
      (.readOrDefault record.userId)).1 = .ok (.record record) := by
  have hdelivered := hfiled.step outside (.deliver sender receiver place)
  have hon : (network.site receiver).settings.enabled = true := henabled
  have hseen := Engine.receive_seen hserves hon hvalid
  have hkeyed : (network.deliver outside sender receiver place).store.Keyed := hdelivered.keyed
  refine operate_readOrDefault hserves hkeyed ?_
  rw [Network.deliver, hplace]
  exact (seen_put_self _ receiver _ _).trans hseen

/-- After anything that may have happened in a network, reads on a node that is served give what
was written. A transition that succeeds gives the record that a read on the same node gives right
afterwards. If the transition changed the record and the node has a cache of its own, then the
record is under way to every other node, and whenever one that is served and tracks users handles
it, a read there gives the record right afterwards. -/
theorem reads_what_was_written {history present : ι → Outside} {start network : Network ι κ}
    (hfresh : start.Fresh) (hreaches : Reaches history (fun _ _ => True) start network)
    {worker : ι} (hserves : (present worker).Serves) {user : String} {transition : Transition}
    {record : Record} {changed : Network ι κ}
    (hchange : network.operate present worker (.change user transition) =
      (.ok (.record record), changed)) :
    (changed.operate present worker (.readOrDefault user)).1 = .ok (.record record) ∧
      ((network.site worker).pendingChange (present worker) user transition ≠ none →
        (network.node worker).topic.needsPeers = true → ∀ other, other ≠ worker →
          .updateStatus record ∈ changed.flight worker other ∧
          ∀ (future : ι → Outside) (later : Network ι κ) (place : Nat),
            Reaches future (fun _ _ => True) changed later →
            (later.flight worker other)[place]? = some (.updateStatus record) →
            (future other).Serves → (later.node other).settings.enabled = true →
              ((later.deliver future worker other place).operate future other
                (.readOrDefault user)).1 = .ok (.record record)) := by
  obtain ⟨result, site, hrun, hanswer, rfl⟩ := operate_change hchange
  obtain rfl : result = .ok record := by
    cases result with
    | error failure => cases hanswer
    | ok given => cases hanswer; rfl
  have hfiled := hreaches.filed hfresh.filed
  have hworker : (network.site worker).Filed := hfiled.site worker
  have hsite : site.Filed := by
    have hframe := Engine.change_frame (Site.filed_frame (present worker)) user transition
      (network.site worker)
    rw [Ensures, hrun] at hframe
    exact hframe hworker
  have hchanged : (network.put worker site).Filed := hfiled.put worker hsite
  refine ⟨?_, fun hpending hneeds other hother => ?_⟩
  · have hseen := Engine.change_seen hserves hworker user transition
    rw [Ensures, hrun] at hseen
    exact operate_readOrDefault hserves hchanged.keyed
      ((seen_put_self network worker site user).trans (hseen record rfl))
  · obtain ⟨pending, hpending⟩ := Option.ne_none_iff_exists'.mp hpending
    obtain ⟨-, hvalid, -⟩ := Site.pendingChange_occurs hpending
    have htells := Engine.change_tells hpending
    rw [Ensures, hrun] at htells
    obtain ⟨rfl, htold⟩ := htells record rfl
    obtain ⟨rfl, -, -⟩ := Site.pendingChange_eq_some hpending
    have huser := (Operation.pending_idles hworker
      (show (Operation.change pending.user transition).pending _ _ = _ from hpending)).2
    refine ⟨?_, fun future later place hreached hplace hserved henabled => ?_⟩
    · rw [flight_put_of_ne hother]
      exact List.mem_append_right _ (htold hneeds)
    · rw [← huser] at hvalid ⊢
      exact read_after_update (hreached.filed hchanged) hserved henabled hvalid hplace

/-- Every write of the store is refused; everything else works. -/
def readOnly : Outside where
  storeFault _ call := if call.reads then none else some (.refused .timedOut)
  cacheFault _ _ := none
  vanishes _ _ := false

theorem readOnly_serves : readOnly.Serves where
  cache _ _ := rfl
  stays _ _ := rfl
  reads _ _ hreads := if_pos hreads

/-- A user comes online, and then a while goes by. -/
def quietRun : List (NetworkStep Bool) :=
  [.operate true (.change "ada" (.online true)), .incident true (.setClock 90000)]

/-- The network in which the user has come online and been quiet for a while. -/
def quiet : Network Bool Bool := quietRun.foldl (step fun _ => .calm) pair

/-- The network after activity of the user that the store refuses to write. -/
def unwritten : Network Bool Bool :=
  (quiet.operate (fun _ => readOnly) true (.change "ada" .activity)).2

/-- Activity that the store refuses to write is read on the node all the same, and on the other
node once it has handled the message, though others from before are still under way. -/
theorem reads_unwritten_activity :
    ∃ record row, (quiet.operate (fun _ => readOnly) true (.change "ada" .activity)).1 =
        .ok (.record record) ∧
      unwritten.store["ada"]? = some row ∧ row.lastActivity = 5000 ∧
      record.lastActivity = 90000 ∧
      (unwritten.operate (fun _ => readOnly) true (.readOrDefault "ada")).1 =
        .ok (.record record) ∧
      ((unwritten.deliver (fun _ => readOnly) true false 2).operate (fun _ => readOnly) false
        (.readOrDefault "ada")).1 = .ok (.record record) := by
  have hreaches : Reaches (fun _ => .calm) (fun _ _ => True) pair quiet :=
    Reaches.start.foldl (by simp [Obeys, quietRun])
  have hresult : (quiet.operate (fun _ => readOnly) true (.change "ada" .activity)).1 =
      .ok (.record ⟨"ada", .online, false, 90000, none, none, none⟩) := by decide +kernel
  have hchange : quiet.operate (fun _ => readOnly) true (.change "ada" .activity) =
      (.ok (.record ⟨"ada", .online, false, 90000, none, none, none⟩), unwritten) :=
    Prod.ext hresult rfl
  have hpending : (quiet.site true).pendingChange readOnly "ada" .activity ≠ none := by
    rw [← Option.isSome_iff_ne_none]
    decide +kernel
  obtain ⟨hown, hothers⟩ :=
    reads_what_was_written pair_fresh hreaches readOnly_serves hchange
  obtain ⟨-, hother⟩ := hothers hpending (by decide +kernel) false (by decide)
  refine ⟨_, ⟨"ada", .online, false, 5000, none, none, none⟩, hresult, by decide +kernel, rfl, rfl,
    hown, ?_⟩
  exact hother (fun _ => readOnly) unwritten 2 .start (by decide +kernel) readOnly_serves
    (by decide +kernel)

end Network

end PresenceTracker
