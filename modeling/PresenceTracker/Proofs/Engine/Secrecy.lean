import Mathlib.Data.List.Forall2
import PresenceTracker.Proofs.Engine.Run

/-!
# Texts of backends stay inside

A failing backend may put anything into the text of its failure. Two runs in which the same calls
fail with failures of the same kinds, none of which is a kind whose text is shown to users, end in
the same state whatever the texts are. They succeed with the same answers, or fail with failures
of the same kind that users read alike. So nothing that a user or another node can see depends on
a text of the store or the cache.
-/

namespace PresenceTracker

section Actions

variable {σ ε α β : Type}

/-- Two results are the same success, or failures that are alike. -/
inductive Agree (alike : ε → ε → Prop) : Except ε α → Except ε α → Prop where
  /-- Both succeed with the same value. -/
  | ok (value : α) : Agree alike (.ok value) (.ok value)
  /-- Both fail. -/
  | error {failure other : ε} (h : alike failure other) :
    Agree alike (.error failure) (.error other)

/-- A result agrees with itself if every failure is like itself. -/
theorem Agree.refl {alike : ε → ε → Prop} (hrefl : ∀ failure, alike failure failure)
    (result : Except ε α) : Agree alike result result := by
  cases result with
  | ok value => exact .ok value
  | error failure => exact .error (hrefl failure)

/-- What is made of the values of results that agree agrees as well. -/
theorem Agree.map {alike : ε → ε → Prop} {result other : Except ε α} (h : Agree alike result other)
    (give : α → β) : Agree alike (result.map give) (other.map give) := by
  cases h with
  | ok value => exact .ok (give value)
  | error halike => exact .error halike

/-- From every state two actions give related results and leave the same state. -/
def RunsAlike (relates : α → α → Prop) (first second : StateM σ α) : Prop :=
  ∀ state, relates (first.run state).1 (second.run state).1 ∧
    (second.run state).2 = (first.run state).2

/-- Values that are related are given by actions that run alike. -/
theorem runsAlike_pure {relates : α → α → Prop} {value other : α} (h : relates value other) :
    RunsAlike relates (pure value : StateM σ α) (pure other) := fun _ => ⟨h, rfl⟩

/-- Actions that are followed up alike run alike. -/
theorem RunsAlike.bind {relates : α → α → Prop} {relates' : β → β → Prop}
    {first second : StateM σ α} {next next' : α → StateM σ β} (h : RunsAlike relates first second)
    (hnext : ∀ value other, relates value other → RunsAlike relates' (next value) (next' other)) :
    RunsAlike relates' (first >>= next) (second >>= next') := by
  intro state
  obtain ⟨hvalue, hstate⟩ := h state
  show relates' ((next _).run (first.run state).2).1 ((next' _).run (second.run state).2).1 ∧
    ((next' _).run (second.run state).2).2 = ((next _).run (first.run state).2).2
  rw [hstate]
  exact hnext _ _ hvalue _

/-- An action may be followed up in two ways that run alike. -/
theorem runsAlike_bind {relates : β → β → Prop} (action : StateM σ α)
    {next next' : α → StateM σ β} (h : ∀ value, RunsAlike relates (next value) (next' value)) :
    RunsAlike relates (action >>= next) (action >>= next') :=
  fun state => h (action.run state).1 (action.run state).2

/-- Actions that run alike and always give the same are the same. -/
theorem RunsAlike.eq {first second : StateM σ α} (h : RunsAlike Eq first second) :
    second = first :=
  funext fun state => Prod.ext (h state).1.symm (h state).2

end Actions

/-- Users read two failures alike: they are of one kind, and say the same to users. -/
structure Failure.ReadsLike (failure other : Failure) : Prop where
  /-- They are of one kind. -/
  kind : other.kind = failure.kind
  /-- They say the same to users. -/
  userMessage : other.userMessage = failure.userMessage

/-- A failure of a backend in other words: the text and the cause may differ, but not the kind,
which is none whose text is shown to users. -/
structure Failure.Rewords (failure other : Failure) : Prop where
  /-- They are of one kind. -/
  kind : other.kind = failure.kind
  /-- They do not say that something does not exist. -/
  notFound : failure.kind ≠ .notFound
  /-- They do not say that something breaks a rule. -/
  validation : failure.kind ≠ .validation

namespace Failure

variable {failure other : Failure}

/-- A failure reads like itself. -/
theorem ReadsLike.refl (failure : Failure) : failure.ReadsLike failure := ⟨rfl, rfl⟩

/-- Of two failures that read alike both or neither say that something does not exist. -/
theorem ReadsLike.isNotFound (h : failure.ReadsLike other) :
    other.isNotFound = failure.isNotFound := by
  simp only [Failure.isNotFound, h.kind]

/-- Users read no text of a backend. -/
theorem Rewords.readsLike (h : failure.Rewords other) : failure.ReadsLike other := by
  have hhidden : failure.kind.isForUsers = false := by
    have hnotFound := h.notFound
    have hvalidation := h.validation
    cases hkind : failure.kind <;> simp_all [FailureKind.isForUsers]
  refine ⟨h.kind, ?_⟩
  rw [userMessage_of_not_isForUsers hhidden,
    userMessage_of_not_isForUsers (h.kind.symm ▸ hhidden)]

end Failure

/-- Two calls to the store fail alike. -/
inductive StoreFault.Both (alike : Failure → Failure → Prop) : StoreFault → StoreFault → Prop where
  /-- The store reports failures that are alike. -/
  | refused {failure other : Failure} (h : alike failure other) :
    Both alike (.refused failure) (.refused other)
  /-- The task is killed. -/
  | killed : Both alike .killed .killed

/-- The same calls fail, with failures in other words. -/
structure Outside.Rewords (first second : Outside) : Prop where
  /-- Calls to the store. -/
  store : ∀ count call, Option.Rel (StoreFault.Both Failure.Rewords) (first.storeFault count call)
    (second.storeFault count call)
  /-- Calls to the cache. -/
  cache : ∀ count call, Option.Rel Failure.Rewords (first.cacheFault count call)
    (second.cacheFault count call)
  /-- The same entries vanish. -/
  vanishes : second.vanishes = first.vanishes
  /-- The store gives back the rows of a sweep in the same order. -/
  order : second.order = first.order

/-- Two results of a task on the store are the same success, or fail alike. -/
abbrev AgreeInTask {α : Type} : Except StoreFault α → Except StoreFault α → Prop :=
  Agree (StoreFault.Both Failure.ReadsLike)

/-- Two results of an operation are the same success, or failures that users read alike. -/
abbrev AgreeForUsers {α : Type} : Except Failure α → Except Failure α → Prop :=
  Agree Failure.ReadsLike

namespace Engine

/-- What is reported of tasks that end alike reads alike, also if they were killed. -/
theorem taskResult_agrees {α : Type} {result other : Except StoreFault α}
    (h : AgreeInTask result other) : AgreeForUsers (taskResult result) (taskResult other) := by
  cases h with
  | ok value => exact .ok value
  | error hfault =>
    cases hfault with
    | refused hreads => exact .error hreads
    | killed => exact .error (.refl _)

section Calls

variable {first second : Outside} (h : first.Rewords second)
include h

/-- At a call the same entries vanish. -/
theorem atCall_alike (site : Site) : site.atCall second = site.atCall first := by
  simp only [Site.atCall, h.vanishes]

/-- A look-up counts a failure as one, whatever its text is. -/
theorem cacheGet_alike (user : String) :
    RunsAlike AgreeForUsers (cacheGet first user) (cacheGet second user) := by
  intro site
  have hfault := h.cache site.calls (.get user)
  simp only [cacheGet, StateT.run, atCall_alike h]
  revert hfault
  generalize first.cacheFault site.calls (.get user) = fault
  generalize second.cacheFault site.calls (.get user) = fault'
  rintro (hrewords | -)
  · exact ⟨.error hrewords.readsLike, rfl⟩
  · exact ⟨.refl .refl _, rfl⟩

/-- A call that changes the cache does the same to it, or fails alike. -/
theorem cacheCall_alike (call : CacheCall) (change : Site → Site) :
    RunsAlike AgreeForUsers
      (fun site => match first.cacheFault site.calls call with
        | some failure => (.error failure, site.atCall first)
        | none => (.ok (), change (site.atCall first)) : StateM Site (Except Failure Unit))
      (fun site => match second.cacheFault site.calls call with
        | some failure => (.error failure, site.atCall second)
        | none => (.ok (), change (site.atCall second)) : StateM Site (Except Failure Unit)) := by
  intro site
  have hfault := h.cache site.calls call
  simp only [StateT.run, atCall_alike h]
  revert hfault
  generalize first.cacheFault site.calls call = fault
  generalize second.cacheFault site.calls call = fault'
  rintro (hrewords | -)
  · exact ⟨.error hrewords.readsLike, rfl⟩
  · exact ⟨.ok (), rfl⟩

/-- A write to the cache fails in both runs or in neither. -/
theorem cachePut_alike (record : Record) :
    RunsAlike AgreeForUsers (cachePut first record) (cachePut second record) :=
  cacheCall_alike h (.put record) fun after => after.hold record

/-- A removal from the cache fails in both runs or in neither. -/
theorem cacheRemove_alike (user : String) :
    RunsAlike AgreeForUsers (cacheRemove first user) (cacheRemove second user) :=
  cacheCall_alike h (.remove user) fun after => after.drop user

/-- A purge fails in both runs or in neither. -/
theorem cachePurge_alike : RunsAlike AgreeForUsers (cachePurge first) (cachePurge second) :=
  cacheCall_alike h .purge Site.clear

/-- A call to the store fails in both runs or in neither, and the failures are of one kind. -/
theorem storeCall_alike {α : Type} (call : StoreCall)
    (run : Store → Except Failure α × Store) :
    RunsAlike AgreeInTask (storeCall first call run) (storeCall second call run) := by
  intro site
  have hfault := h.store site.calls call
  simp only [storeCall, StateT.run, atCall_alike h]
  revert hfault
  generalize first.storeFault site.calls call = fault
  generalize second.storeFault site.calls call = fault'
  rintro (hboth | -)
  · refine ⟨.error ?_, rfl⟩
    cases hboth with
    | refused hrewords => exact .refused hrewords.readsLike
    | killed => exact .killed
  · refine ⟨.refl (fun fault => ?_) _, rfl⟩
    cases fault with
    | refused failure => exact .refused (.refl failure)
    | killed => exact .killed

/-- A sweep of the store gives back the same rows, in the same order. -/
theorem storeSweep_alike (now : Moment) :
    RunsAlike AgreeInTask (storeSweep first now) (storeSweep second now) := by
  intro site
  have hturned : site.turned second now = site.turned first now := by
    rw [Site.turned, h.order, Site.turned]
  have hcall := storeCall_alike h (.sweep now)
    (fun store => (.ok (site.turned first now), store.sweep now)) site
  rwa [show (storeSweep second now).run site = (storeCall second (.sweep now)
    fun store => (.ok (site.turned first now), store.sweep now)).run site by rw [← hturned]; rfl]

end Calls

section Operations

variable {first second : Outside} (h : first.Rewords second)
include h

/-- A load branches on the kind of a failure only. -/
theorem load_alike (user : String) :
    RunsAlike AgreeInTask (load first user) (load second user) := by
  refine (cacheGet_alike h user).bind fun found other hfound => ?_
  obtain (_ | record) | _ := hfound
  case ok.some => exact runsAlike_pure (.ok _)
  -- A look-up that finds nothing is followed up like one that fails, in whatever words.
  all_goals
    refine (storeCall_alike h (.get user) _).bind fun result other hresult => ?_
    cases hresult with
    | ok record => exact runsAlike_pure (.ok _)
    | error hfault =>
      cases hfault with
      | killed => exact runsAlike_pure (.error .killed)
      | refused hreads =>
        dsimp only
        rw [hreads.isNotFound]
        split
        · exact runsAlike_pure (.ok _)
        · exact runsAlike_pure (.error (.refused hreads))

/-- Nothing that is published about a record depends on how the cache fails. -/
theorem cacheAndSync_alike (record : Record) :
    RunsAlike Eq (cacheAndSync first record) (cacheAndSync second record) := by
  refine (cachePut_alike h record).bind fun result other hresult => ?_
  cases hresult with
  | ok _ => exact runsAlike_bind _ fun _ => fun _ => ⟨rfl, rfl⟩
  | error _ =>
    exact (cacheRemove_alike h record.userId).bind fun _ _ _ => fun _ => ⟨rfl, rfl⟩

/-- A write fails with the failure of the store, or with that of the check, which no backend has
written. -/
theorem persist_alike (user : String) (current : Current) (next : Record) :
    RunsAlike AgreeInTask (persist first user current next) (persist second user current next) := by
  unfold persist
  split
  · split
    · exact runsAlike_pure (.error (.refused (.refl _)))
    · refine (storeCall_alike h (.save next) _).bind fun result other hresult => ?_
      cases hresult with
      | ok _ => exact runsAlike_bind _ fun _ => runsAlike_pure (.ok ())
      | error hfault => exact runsAlike_pure (.error hfault)
  · refine runsAlike_bind get fun site => ?_
    split
    · exact runsAlike_pure (.ok ())
    · refine (storeCall_alike h (.touch next.userId next.lastActivity) _).bind
        fun result other hresult => ?_
      cases hresult with
      | ok _ => exact runsAlike_bind _ fun _ => runsAlike_pure (.ok ())
      | error hfault =>
        cases hfault with
        | refused _ => exact runsAlike_pure (.ok ())
        | killed => exact runsAlike_pure (.error .killed)

/-- A commit hands on the failure of a write and tells nobody of it. -/
theorem commit_alike (user : String) (current : Current) (next : Record) :
    RunsAlike AgreeInTask (commit first user current next) (commit second user current next) := by
  unfold commit
  split
  · exact runsAlike_pure (.ok next)
  · refine (persist_alike h user current next).bind fun result other hresult => ?_
    cases hresult with
    | error hfault => exact runsAlike_pure (.error hfault)
    | ok _ =>
      refine (cacheAndSync_alike h next).bind fun _ _ _ => ?_
      split
      · exact runsAlike_bind _ fun _ => runsAlike_pure (.ok next)
      · exact runsAlike_pure (.ok next)

/-- A transition fails as its load or its commit does. -/
theorem perform_alike (user : String) (transition : Transition) :
    RunsAlike AgreeInTask (perform first user transition) (perform second user transition) := by
  refine (load_alike h user).bind fun result other hresult => ?_
  cases hresult with
  | error hfault => exact runsAlike_pure (.error hfault)
  | ok current =>
    refine runsAlike_bind get fun site => ?_
    split
    · exact runsAlike_pure (.error (.refused (.refl _)))
    · exact runsAlike_pure (.ok current.record)
    · exact commit_alike h user current _

/-- A change reports how its task has ended. -/
theorem change_alike (user : String) (transition : Transition) :
    RunsAlike AgreeForUsers (change first user transition) (change second user transition) := by
  refine runsAlike_bind get fun site => ?_
  split
  · exact runsAlike_pure (.ok _)
  · split
    · exact runsAlike_pure (.error (.refl _))
    · exact (perform_alike h user transition).bind fun _ _ hresult =>
        runsAlike_bind _ fun _ => runsAlike_pure (taskResult_agrees hresult)

/-- Whether a row is taken over into the cache depends on no text. -/
theorem backfill_alike (record : Record) :
    RunsAlike Eq (backfill first record) (backfill second record) := by
  refine (cacheGet_alike h record.userId).bind fun found other hfound => ?_
  obtain (_ | cached) | _ := hfound
  case ok.some => exact fun _ => ⟨rfl, rfl⟩
  all_goals exact (cachePut_alike h record).bind fun _ _ _ => fun _ => ⟨rfl, rfl⟩

/-- A failure of the store is only handed on where it says that there is no status. -/
theorem read_alike (user : String) :
    RunsAlike AgreeForUsers (read first user) (read second user) := by
  refine runsAlike_bind get fun site => ?_
  split
  · exact runsAlike_pure (.ok _)
  · split
    · exact runsAlike_pure (.error (.refl _))
    · refine (cacheGet_alike h user).bind fun found other hfound => ?_
      obtain (_ | record) | _ := hfound
      case ok.some => exact runsAlike_pure (.ok record)
      all_goals
        refine (storeCall_alike h (.get user) _).bind fun result other hresult => ?_
        cases hresult with
        | ok record =>
          exact (backfill_alike h record).bind fun _ _ _ => runsAlike_pure (.ok record)
        | error hfault =>
          cases hfault with
          | killed => exact runsAlike_pure (.error (.refl _))
          | refused hreads =>
            dsimp only
            rw [hreads.isNotFound]
            split
            · exact runsAlike_pure (.error hreads)
            · exact runsAlike_pure (.error (.refl _))

/-- A read that falls back on the default record gives the same in both runs. -/
theorem readOrDefault_alike (user : String) :
    RunsAlike Eq (readOrDefault first user) (readOrDefault second user) := by
  refine (read_alike h user).bind fun result other hresult => ?_
  cases hresult with
  | ok record => exact runsAlike_pure rfl
  | error _ => exact runsAlike_pure rfl

/-- A look-up that fails counts as one that finds nothing. -/
theorem gatherOne_alike (gathered : Gathered) (user : String) :
    RunsAlike Eq (gatherOne first gathered user) (gatherOne second gathered user) := by
  unfold gatherOne
  split
  · exact runsAlike_pure rfl
  · refine (cacheGet_alike h user).bind fun found other hfound => ?_
    cases hfound with
    | error _ => exact runsAlike_pure rfl
    | ok record? => cases record? <;> exact runsAlike_pure rfl

/-- The rows that are read are gathered alike. -/
theorem gatherStored_alike (found : Table Record) (record : Record) :
    RunsAlike Eq (gatherStored first found record) (gatherStored second found record) :=
  (backfill_alike h record).bind fun _ _ _ => runsAlike_pure rfl

/-- A read of several users fails as its call to the store does. -/
theorem readMany_alike (users : List String) :
    RunsAlike AgreeForUsers (readMany first users) (readMany second users) := by
  have hone : gatherOne second = gatherOne first :=
    funext fun gathered => funext fun user => (gatherOne_alike h gathered user).eq
  have hstored : gatherStored second = gatherStored first :=
    funext fun found => funext fun record => (gatherStored_alike h found record).eq
  unfold readMany
  rw [hone, hstored]
  refine runsAlike_bind get fun site => ?_
  split
  · exact runsAlike_pure (.ok [])
  · refine runsAlike_bind _ fun gathered => ?_
    split
    · exact runsAlike_pure (.ok _)
    · refine (storeCall_alike h (.getMany gathered.missing) _).bind fun result other hresult => ?_
      cases hresult with
      | ok records => exact runsAlike_bind _ fun _ => runsAlike_pure (.ok _)
      | error hfault =>
        cases hfault with
        | refused _ => exact runsAlike_pure (.ok _)
        | killed => exact runsAlike_pure (.error (.refl _))

/-- The new last activity is noted in both runs or in neither. -/
theorem cacheActivity_alike (user : String) (moment : Moment) :
    RunsAlike AgreeInTask (cacheActivity first user moment) (cacheActivity second user moment) := by
  refine (load_alike h user).bind fun result other hresult => ?_
  cases hresult with
  | error hfault => exact runsAlike_pure (.error hfault)
  | ok current =>
    dsimp only
    split
    · exact (cachePut_alike h _).bind fun _ _ _ => runsAlike_pure (.ok true)
    · exact runsAlike_pure (.ok false)

/-- Setting the last activity fails as its load does, or as the change that it leads to. -/
theorem setLastActivity_alike (user : String) (moment : Moment) :
    RunsAlike AgreeForUsers (setLastActivity first user moment)
      (setLastActivity second user moment) := by
  refine runsAlike_bind get fun site => ?_
  split
  · exact runsAlike_pure (.ok ())
  · split
    · exact runsAlike_pure (.error (.refl _))
    · refine (cacheActivity_alike h user moment).bind fun known other hknown => ?_
      refine runsAlike_bind _ fun _ => ?_
      cases hknown with
      | error hfault =>
        cases hfault with
        | refused _ => exact runsAlike_pure (.ok ())
        | killed => exact runsAlike_pure (.error (.refl _))
      | ok isKnown =>
        cases isKnown with
        | false => exact runsAlike_pure (.ok ())
        | true =>
          exact (change_alike h user (.away false)).bind fun _ _ hresult =>
            runsAlike_pure (hresult.map _)

/-- A deletion fails as its call to the store does; a failing removal from the cache is not
reported. -/
theorem delete_alike (user : String) :
    RunsAlike AgreeInTask (delete first user) (delete second user) := by
  refine (storeCall_alike h (.delete user) _).bind fun result other hresult => ?_
  cases hresult with
  | error hfault => exact runsAlike_pure (.error hfault)
  | ok _ =>
    refine (cacheRemove_alike h user).bind fun _ _ _ => ?_
    exact runsAlike_bind _ fun _ => runsAlike_bind _ fun _ => runsAlike_pure (.ok ())

/-- A removal reports how its task has ended. -/
theorem remove_alike (user : String) :
    RunsAlike AgreeForUsers (remove first user) (remove second user) := by
  refine runsAlike_bind get fun site => ?_
  split
  · exact runsAlike_pure (.ok ())
  · split
    · exact runsAlike_pure (.error (.refl _))
    · exact (delete_alike h user).bind fun _ _ hresult =>
        runsAlike_bind _ fun _ => runsAlike_pure (taskResult_agrees hresult)

/-- A purge hands the failure of the cache on, in whatever words. -/
theorem clearCaches_alike : RunsAlike AgreeForUsers (clearCaches first) (clearCaches second) := by
  refine runsAlike_bind get fun site => ?_
  split
  · exact runsAlike_pure (.ok ())
  · refine (cachePurge_alike h).bind fun result other hresult => ?_
    cases hresult with
    | error hreads => exact runsAlike_pure (.error hreads)
    | ok _ => exact runsAlike_bind _ fun _ => runsAlike_pure (.ok ())

/-- A turned row is spread alike, whatever the look-up of its user has failed with. -/
theorem propagate_alike (now : Moment) (record : Record) :
    RunsAlike Eq (propagate first now record) (propagate second now record) := by
  have hspread : RunsAlike Eq
      (do cacheAndSync first record; broadcast record; release record.userId)
      (do cacheAndSync second record; broadcast record; release record.userId) :=
    (cacheAndSync_alike h record).bind fun _ _ _ => fun _ => ⟨rfl, rfl⟩
  refine runsAlike_bind _ fun _ => ?_
  refine (cacheGet_alike h record.userId).bind fun found other hfound => ?_
  obtain (_ | cached) | _ := hfound
  · exact hspread
  · dsimp only
    split
    · exact hspread
    · exact fun _ => ⟨rfl, rfl⟩
  · exact hspread

/-- A sweep fails as its call to the store does. -/
theorem sweep_alike : RunsAlike AgreeInTask (sweep first) (sweep second) := by
  have hspread : propagate second = propagate first :=
    funext fun now => funext fun record => (propagate_alike h now record).eq
  unfold sweep
  rw [hspread]
  refine runsAlike_bind get fun site => ?_
  refine (storeSweep_alike h site.clock).bind fun result other hresult => ?_
  cases hresult with
  | error hfault => exact runsAlike_pure (.error hfault)
  | ok restored =>
    exact runsAlike_bind _ fun _ => runsAlike_bind _ fun _ => runsAlike_pure (.ok restored)

/-- The operation that sweeps reports how the sweep has ended. -/
theorem expire_alike : RunsAlike AgreeForUsers (expire first) (expire second) := by
  refine runsAlike_bind get fun site => ?_
  split
  · exact runsAlike_pure (.ok [])
  · exact (sweep_alike h).bind fun _ _ hresult => runsAlike_pure (taskResult_agrees hresult)

end Operations

end Engine

variable {first second : Outside}

/-- An operation does the same in whatever words its calls fail, and gives results that users read
alike. -/
theorem Operation.run_alike (h : first.Rewords second) (operation : Operation) :
    RunsAlike AgreeForUsers (operation.run first) (operation.run second) := by
  cases operation with
  | change user transition =>
    exact (Engine.change_alike h user transition).bind fun _ _ hresult =>
      runsAlike_pure (hresult.map _)
  | read user =>
    exact (Engine.read_alike h user).bind fun _ _ hresult => runsAlike_pure (hresult.map _)
  | readOrDefault user =>
    exact (Engine.readOrDefault_alike h user).bind fun _ _ hsame =>
      runsAlike_pure (hsame ▸ .ok _)
  | readMany users =>
    exact (Engine.readMany_alike h users).bind fun _ _ hresult => runsAlike_pure (hresult.map _)
  | setLastActivity user moment =>
    exact (Engine.setLastActivity_alike h user moment).bind fun _ _ hresult =>
      runsAlike_pure (hresult.map _)
  | remove user =>
    exact (Engine.remove_alike h user).bind fun _ _ hresult => runsAlike_pure (hresult.map _)
  | clearCaches =>
    exact (Engine.clearCaches_alike h).bind fun _ _ hresult => runsAlike_pure (hresult.map _)
  | expire =>
    exact (Engine.expire_alike h).bind fun _ _ hresult => runsAlike_pure (hresult.map _)

namespace Site

/-- What the operations of a run give back. -/
def answers (outside : Outside) (site : Site) : List Happening → List (Except Failure Answer)
  | [] => []
  | .operation operation :: rest => ((operation.run outside).run site).1 ::
      (site.happen outside (.operation operation)).answers outside rest
  | .incident incident :: rest => (site.happen outside (.incident incident)).answers outside rest

/-- What happens to a site leaves the same site in whatever words failures are put. -/
theorem happen_alike (h : first.Rewords second) (site : Site) (happening : Happening) :
    site.happen second happening = site.happen first happening := by
  cases happening with
  | operation operation => exact (operation.run_alike h site).2
  | incident incident => rfl

/-- From every site, whichever calls fail, each operation leaves the same site in whatever words
the failures of the store and the cache are put, if they are of the same kinds and none of a kind
that is shown to users. It succeeds with the same answer, or fails with failures of the same kind
that say the same to users. And so does every run of the node, answer by answer. -/
theorem failure_texts_stay_inside (h : first.Rewords second) (site : Site) :
    (∀ operation : Operation,
      AgreeForUsers ((operation.run first).run site).1 ((operation.run second).run site).1 ∧
        ((operation.run second).run site).2 = ((operation.run first).run site).2) ∧
    ∀ run : List Happening,
      List.Forall₂ AgreeForUsers (site.answers first run) (site.answers second run) ∧
        site.after second run = site.after first run := by
  refine ⟨fun operation => operation.run_alike h site, fun run => ?_⟩
  induction run generalizing site with
  | nil => exact ⟨.nil, by simp only [after, List.foldl_nil]⟩
  | cons happening rest ih =>
    obtain ⟨hanswers, hafter⟩ := ih (site.happen first happening)
    have hsame := happen_alike h site happening
    refine ⟨?_, ?_⟩
    · cases happening with
      | operation operation =>
        refine .cons (operation.run_alike h site).1 ?_
        rw [hsame]
        exact hanswers
      | incident incident => exact hanswers
    · show (site.happen second happening).after second rest = _
      rw [hsame]
      exact hafter

/-- The store refuses its first reads and its last deletion, and the cache its purge, in the given
words. -/
def talkative (words : String) : Outside where
  storeFault
    | count, .get _ => if count < 4 then some (.refused (.around .database words)) else none
    | _, .delete _ => some (.refused (.around .timeout words))
    | _, _ => none
  cacheFault
    | _, .purge => some (.plain .cache words)
    | _, _ => none
  vanishes _ _ := false

/-- A run in which a read, a transition, a purge and a removal fail. -/
def refusedRun : List Happening :=
  [.operation (.read "ada"), .operation (.change "ada" (.online true)), .operation .clearCaches,
    .operation (.change "ada" (.online true)), .operation (.remove "ada")]

/-- A password in the text of a failure changes the failure of a transition, but neither what users
read of it nor anything else. -/
theorem failure_texts_stay_inside_in_refusedRun :
    ((Operation.change "ada" (.online true)).run (talkative "host=db password=secret")).run
        blank ≠ ((Operation.change "ada" (.online true)).run (talkative "gone")).run blank ∧
      List.Forall₂ AgreeForUsers (blank.answers (talkative "host=db password=secret") refusedRun)
        (blank.answers (talkative "gone") refusedRun) ∧
      blank.after (talkative "gone") refusedRun =
        blank.after (talkative "host=db password=secret") refusedRun := by
  have hrewords : (talkative "host=db password=secret").Rewords (talkative "gone") := by
    refine ⟨fun count call => ?_, fun count call => ?_, rfl, rfl⟩
    · cases call with
      | get user =>
        simp only [talkative]
        split
        · exact .some (.refused ⟨rfl, nofun, nofun⟩)
        · exact .none
      | delete user => exact .some (.refused ⟨rfl, nofun, nofun⟩)
      | getMany | save | touch | sweep => exact .none
    · cases call with
      | purge => exact .some ⟨rfl, nofun, nofun⟩
      | get | put | remove => exact .none
  refine ⟨fun hsame => ?_, (failure_texts_stay_inside hrewords blank).2 refusedRun⟩
  have hmessages := congrArg
    (fun outcome => match outcome.1 with
      | Except.error (failure : Failure) => failure.message
      | Except.ok _ => "") hsame
  revert hmessages
  decide +kernel

end Site

end PresenceTracker
