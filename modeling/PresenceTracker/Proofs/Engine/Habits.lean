import PresenceTracker.Engine.Operations
import PresenceTracker.Proofs.Engine.Frame

/-!
# Reads while calls end as they always do

Where looking a user up in the cache, writing the user's entry and reading the store each
always work or never do, and no entry vanishes, what a read gives and what it leaves can be
said in advance: a record that is seen in the cache is given, and otherwise the row, which
then stands in the cache if it can be written there. Reading other users before changes
nothing about this, nor does reading the same user again. So what a site is after some users
were read depends on which users these are, and not on their order or on repetitions.
-/

namespace PresenceTracker

/-- How reads of the store end. -/
inductive ReadHabit where
  /-- They work. -/
  | works
  /-- The store refuses them. -/
  | refuses
  /-- They kill the task. -/
  | kills
  deriving DecidableEq, Repr

/-- How a read of the store fails under a habit. -/
def ReadHabit.Allows : ReadHabit → Option StoreFault → Prop
  | works, fault => fault = none
  | refuses, fault => ∃ failure, fault = some (.refused failure)
  | kills, fault => fault = some .killed

/-- How the calls of a read end. -/
structure Habits where
  /-- Whether looking a user up in the cache fails. -/
  looksFail : String → Bool
  /-- Whether writing a user's entry in the cache fails. -/
  putsFail : String → Bool
  /-- How reads of the store end. -/
  reads : ReadHabit

/-- Calls always end in the same way, and no entry of the cache vanishes. -/
structure Outside.Keeps (outside : Outside) (habits : Habits) : Prop where
  /-- No entry vanishes. -/
  stays : ∀ count user, outside.vanishes count user = false
  /-- A look-up of a user always works or always fails. -/
  looks : ∀ count user,
    (outside.cacheFault count (.get user)).isSome = habits.looksFail user
  /-- A write of a user's entry always works or always fails. -/
  puts : ∀ count record,
    (outside.cacheFault count (.put record)).isSome = habits.putsFail record.userId
  /-- Reads of the store all work or all fail alike. -/
  reads : ∀ count call, call.reads = true → habits.reads.Allows (outside.storeFault count call)

namespace Site

variable {outside : Outside} {habits : Habits} {start site later : Site} {users : List String}
  {user : String}

/-- The record that a look-up of a user finds in the cache. -/
def sees (habits : Habits) (site : Site) (user : String) : Option Record :=
  if habits.looksFail user then none else site.cached? user

/-- The row that is read of a user who is not seen in the cache. -/
def fetches (habits : Habits) (site : Site) (user : String) : Option Record :=
  match site.sees habits user, habits.reads with
  | none, .works => site.store[user]?
  | _, _ => none

/-- The record that a read of a user gives. -/
def gives (habits : Habits) (site : Site) (user : String) : Option Record :=
  (site.sees habits user).or (site.fetches habits user)

/-- The frame that the cache holds of a user who was read. -/
def frameAfter (habits : Habits) (site : Site) (user : String) : Option Bytes :=
  match site.fetches habits user with
  | none => site.cache[user]?
  | some row =>
    if habits.putsFail user then site.cache[user]? else some (FrameCodec.record.encode row)

/-- The slot of a user who was read: where a row is fetched, it is forgotten if its window is
closed. -/
def slotAfter (habits : Habits) (site : Site) (user : String) : Option Moment :=
  if (site.fetches habits user).isSome && !site.skipsWrite user then none else site.slots[user]?

/-- Since a moment some users were read, and nothing else has happened. -/
structure HasRead (habits : Habits) (users : List String) (site later : Site) : Prop where
  /-- The clock stands still. -/
  clock : later.clock = site.clock
  /-- The settings are the same. -/
  settings : later.settings = site.settings
  /-- The rows are the same. -/
  store : later.store = site.store
  /-- Nothing was published. -/
  published : later.published = site.published
  /-- Nothing was shown. -/
  shown : later.shown = site.shown
  /-- The cache holds what reads of the users leave. -/
  cache : ∀ user, later.cache[user]? =
    if user ∈ users then site.frameAfter habits user else site.cache[user]?
  /-- The slots are what reads of the users leave. -/
  slots : ∀ user, later.slots[user]? =
    if user ∈ users then site.slotAfter habits user else site.slots[user]?

theorem HasRead.refl (habits : Habits) (site : Site) : site.HasRead habits [] site where
  clock := rfl
  settings := rfl
  store := rfl
  published := rfl
  shown := rfl
  cache user := by rw [if_neg List.not_mem_nil]
  slots user := by rw [if_neg List.not_mem_nil]

/-- What a read of a user can come to: the record that is given; or, where there is none, a
failure that says so, or the end of the task. -/
inductive Answers (habits : Habits) (site : Site) (user : String) :
    Except Failure Record → Prop where
  /-- The record that is given. -/
  | given {record : Record} (hgives : site.gives habits user = some record) :
      Answers habits site user (.ok record)
  /-- The user is reported to have no status. -/
  | unknown {failure : Failure} (hnone : site.gives habits user = none)
      (hreads : habits.reads ≠ .kills) (hfailure : failure.isNotFound = true) :
      Answers habits site user (.error failure)
  /-- The task is killed. -/
  | killed (hunseen : site.sees habits user = none) (hkills : habits.reads = .kills) :
      Answers habits site user (Engine.taskResult (.error .killed))

/-- The records that reads of several users give, in this order, unless a user is not seen while
reads of the store kill the task. -/
def listing (habits : Habits) (site : Site) : List String → Except Failure (List Record)
  | [] => .ok []
  | user :: rest =>
    match site.gives habits user with
    | some record => (site.listing habits rest).map (record :: ·)
    | none =>
      if habits.reads = .kills then Engine.taskResult (.error .killed)
      else site.listing habits rest

/-- Nothing is fetched of a user who is seen. -/
theorem fetches_of_sees (hseen : start.sees habits user ≠ none) :
    start.fetches habits user = none := by
  unfold fetches
  cases hsees : start.sees habits user with
  | none => exact absurd hsees hseen
  | some record => rfl

/-- Nothing is fetched where reads of the store fail. -/
theorem fetches_of_reads (hreads : habits.reads ≠ .works) :
    start.fetches habits user = none := by
  unfold fetches
  cases start.sees habits user <;> cases hhabit : habits.reads <;> first | rfl | contradiction

/-- A user of whom nothing is fetched is given what is seen. -/
theorem gives_of_not_fetches (hnone : start.fetches habits user = none) :
    start.gives habits user = start.sees habits user := by rw [gives, hnone, Option.or_none]

/-- Where no read kills a task, or a record is given of every user, the records that are given are
listed. -/
theorem listing_of_given
    (hgiven : habits.reads = .kills → ∀ user ∈ users, (start.gives habits user).isSome = true) :
    start.listing habits users = .ok (users.filterMap (start.gives habits)) := by
  induction users with
  | nil => rfl
  | cons user rest ih =>
    have hrest := ih fun hkills other hmem => hgiven hkills other (List.mem_cons_of_mem user hmem)
    rw [listing, List.filterMap_cons]
    cases hgives : start.gives habits user with
    | some record =>
      rw [hrest]
      rfl
    | none =>
      have hspared : habits.reads ≠ .kills := by
        intro hkills
        have hsome := hgiven hkills user List.mem_cons_self
        rw [hgives] at hsome
        cases hsome
      rw [if_neg hspared]
      exact hrest

/-- A user of whom no record is given makes the reads of several users end with the task, where
reads of the store kill it. -/
theorem listing_of_killed (hkills : habits.reads = .kills) (hmem : user ∈ users)
    (hnone : start.gives habits user = none) :
    start.listing habits users = Engine.taskResult (.error .killed) := by
  induction users with
  | nil => cases hmem
  | cons first rest ih =>
    rw [listing]
    rcases List.mem_cons.mp hmem with rfl | hmem
    · rw [hnone]
      exact if_pos hkills
    · cases start.gives habits first with
      | some record =>
        rw [ih hmem]
        rfl
      | none => exact if_pos hkills

/-- What is fetched of a user is not seen, and is the row. -/
theorem fetches_eq_some_iff {row : Record} : start.fetches habits user = some row ↔
    start.sees habits user = none ∧ habits.reads = .works ∧ start.store[user]? = some row := by
  unfold fetches
  cases start.sees habits user <;> cases habits.reads <;> simp

namespace HasRead

/-- Losing nothing, a site stays one where the users were read. -/
theorem fades (hkeeps : outside.Keeps habits) (h : start.HasRead habits users site)
    (hfades : site.Fades outside later) : start.HasRead habits users later where
  clock := hfades.clock.trans h.clock
  settings := hfades.settings.trans h.settings
  store := hfades.store.trans h.store
  published := hfades.published.trans h.published
  shown := hfades.shown.trans h.shown
  cache user := (hfades.stays user fun count => hkeeps.stays count user).trans (h.cache user)
  slots user := by rw [hfades.slots, h.slots]

/-- Users for whom nothing is fetched may count as read, and nothing else matters but who was
read. -/
theorem widen {others : List String} (h : start.HasRead habits users site)
    (hread : ∀ user ∈ users, user ∈ others)
    (hrest : ∀ user ∈ others, user ∉ users → start.fetches habits user = none) :
    start.HasRead habits others site where
  clock := h.clock
  settings := h.settings
  store := h.store
  published := h.published
  shown := h.shown
  cache user := by
    rw [h.cache]
    by_cases hmem : user ∈ users
    · rw [if_pos hmem, if_pos (hread user hmem)]
    · rw [if_neg hmem]
      split
      · next hother => rw [frameAfter, hrest user hother hmem]
      · rfl
  slots user := by
    rw [h.slots]
    by_cases hmem : user ∈ users
    · rw [if_pos hmem, if_pos (hread user hmem)]
    · rw [if_neg hmem]
      split
      · next hother => simp [slotAfter, hrest user hother hmem]
      · rfl

theorem cons_of_not_fetches (h : start.HasRead habits users site)
    (hnone : start.fetches habits user = none) : start.HasRead habits (user :: users) site :=
  h.widen (fun _ hmem => List.mem_cons_of_mem user hmem) fun other hmem hnew => by
    rw [(List.mem_cons.mp hmem).resolve_right hnew]
    exact hnone

theorem of_mem_iff {others : List String} (h : start.HasRead habits users site)
    (hsame : ∀ user, user ∈ users ↔ user ∈ others) : start.HasRead habits others site :=
  h.widen (fun user hmem => (hsame user).mp hmem) fun user hmem hnew =>
    absurd ((hsame user).mpr hmem) hnew

/-- A user who is looked up is seen as at the start, or was read before and shows the row. -/
theorem sees_or (h : start.HasRead habits users site) (user : String) :
    site.sees habits user = start.sees habits user ∨
      ∃ row, start.fetches habits user = some row ∧ site.sees habits user = some row := by
  unfold sees
  cases hlooks : habits.looksFail user with
  | true => exact .inl (by simp)
  | false =>
    simp only [Bool.false_eq_true, if_false]
    have hcache := h.cache user
    by_cases hread : user ∈ users
    · rw [if_pos hread] at hcache
      cases hfetches : start.fetches habits user with
      | none =>
        rw [frameAfter, hfetches] at hcache
        exact .inl (by rw [cached?, cached?, hcache])
      | some row =>
        cases hputs : habits.putsFail user with
        | true =>
          simp only [frameAfter, hfetches, hputs, if_true] at hcache
          exact .inl (by rw [cached?, cached?, hcache])
        | false =>
          simp only [frameAfter, hfetches, hputs, Bool.false_eq_true, if_false] at hcache
          refine .inr ⟨row, rfl, ?_⟩
          rw [cached?, hcache]
          simp [FrameCodec.decode_encode_record, Except.toOption]
    · rw [if_neg hread] at hcache
      exact .inl (by rw [cached?, cached?, hcache])

theorem sees_of_not_mem (h : start.HasRead habits users site) (hnew : user ∉ users) :
    site.sees habits user = start.sees habits user := by
  have hcache := h.cache user
  rw [if_neg hnew] at hcache
  unfold sees cached?
  rw [hcache]

/-- Whoever is seen is given, whether at the start or by a read before. -/
theorem gives_of_sees (h : start.HasRead habits users site) {record : Record}
    (hsees : site.sees habits user = some record) : start.gives habits user = some record := by
  rcases h.sees_or user with hsame | ⟨row, hfetches, hrow⟩
  · rw [gives, ← hsame, hsees, Option.some_or]
  · obtain rfl : row = record := Option.some.inj (hrow.symm.trans hsees)
    rw [gives, (fetches_eq_some_iff.mp hfetches).1, Option.none_or, hfetches]

/-- A user who is seen may count as read. -/
theorem cons_of_sees (h : start.HasRead habits users site) {record : Record}
    (hseen : site.sees habits user = some record) : start.HasRead habits (user :: users) site := by
  refine h.widen (fun _ hmem => List.mem_cons_of_mem user hmem) fun other hmem hnew => ?_
  obtain rfl : other = user := (List.mem_cons.mp hmem).resolve_right hnew
  rw [h.sees_of_not_mem hnew] at hseen
  rw [fetches, hseen]

/-- Whoever is not seen was not seen at the start. -/
theorem sees_eq_none (h : start.HasRead habits users site)
    (hnone : site.sees habits user = none) : start.sees habits user = none := by
  rcases h.sees_or user with hsame | ⟨row, -, hrow⟩
  · rw [← hsame, hnone]
  · rw [hnone] at hrow
    cases hrow

end HasRead

end Site

namespace Engine

open Site

variable {outside : Outside} {habits : Habits} {start site : Site} {users : List String}
  {user : String}

/-- A look-up finds what is seen. -/
theorem cacheGet_sees (hkeeps : outside.Keeps habits) (user : String) (site : Site) :
    Ensures (cacheGet outside user) site fun found later => site.Fades outside later ∧
      ∀ record, found = .ok (some record) ↔ site.sees habits user = some record := by
  refine ((cacheGet_ensures outside user site).and
    (ensures_run (cacheGet outside user) site)).mono fun found later hcall => ?_
  obtain ⟨⟨hfades, -⟩, hrun⟩ := hcall
  refine ⟨hfades, fun record => ?_⟩
  have hstays : (site.atCall outside).cached? user = site.cached? user := by
    have hfaded := (site.fades_atCall outside).stays user fun count => hkeeps.stays count user
    rw [Site.cached?, Site.cached?, hfaded]
  have hlooks := hkeeps.looks site.calls user
  simp only [cacheGet, StateT.run] at hrun
  obtain ⟨rfl, -⟩ := Prod.mk.inj hrun
  unfold Site.sees
  cases hfault : outside.cacheFault site.calls (.get user) with
  | some failure =>
    rw [hfault, Option.isSome_some] at hlooks
    simp [← hlooks]
  | none =>
    rw [hfault, Option.isSome_none] at hlooks
    simp [← hlooks, lookUpResult_eq_ok_some_iff, hstays]

/-- A write to the cache holds the record, unless writes of the entry fail. -/
theorem cachePut_holds (hkeeps : outside.Keeps habits) (record : Record) (site : Site) :
    Ensures (cachePut outside record) site fun _ later => ∃ faded, site.Fades outside faded ∧
      later = if habits.putsFail record.userId then faded else faded.hold record := by
  refine ⟨site.atCall outside, site.fades_atCall outside, ?_⟩
  have hputs := hkeeps.puts site.calls record
  simp only [cachePut, StateT.run]
  split
  · next failure hfault =>
    rw [hfault, Option.isSome_some] at hputs
    rw [← hputs, if_pos rfl]
  · next hworks =>
    rw [hworks, Option.isSome_none] at hputs
    rw [← hputs, if_neg Bool.false_ne_true]
    rfl

/-- A read of the store ends as reads do. -/
theorem storeRead_keeps {α : Type} (hkeeps : outside.Keeps habits) {call : StoreCall}
    (hcall : call.reads = true) (rows : Store → Except Failure α) (site : Site) :
    Ensures (storeCall outside call fun store => (rows store, store)) site fun result later =>
      site.Fades outside later ∧ match habits.reads with
        | .works => result = (rows site.store).mapError .refused
        | .refuses => ∃ failure, result = .error (.refused failure)
        | .kills => result = .error .killed := by
  have hread := hkeeps.reads site.calls call hcall
  refine ((storeRead_ensures outside call rows site).and (ensures_run _ site)).mono
    fun result later hcalled => ⟨hcalled.1.1, ?_⟩
  obtain ⟨-, hrun⟩ := hcalled
  simp only [storeCall, StateT.run] at hrun
  obtain ⟨hresult, -⟩ := Prod.mk.inj hrun
  revert hread
  cases habits.reads with
  | works =>
    rintro hnone
    rw [hnone] at hresult
    exact hresult.symm
  | refuses =>
    rintro ⟨failure, hfault⟩
    rw [hfault] at hresult
    exact ⟨failure, hresult.symm⟩
  | kills =>
    intro hfault
    rw [hfault] at hresult
    exact hresult.symm

/-- The slot of a user who was read before is that of the start, or the user is forgotten. -/
theorem skipsWrite_of_hasRead (h : start.HasRead habits users site)
    (hfetches : (start.fetches habits user).isSome = true) :
    site.skipsWrite user = start.skipsWrite user := by
  have hslot := h.slots user
  unfold skipsWrite
  rw [h.clock, h.settings, hslot]
  split
  · unfold slotAfter
    cases hskips : start.skipsWrite user with
    | true => simp [← skipsWrite.eq_1, hskips]
    | false =>
      simp only [hfetches, Bool.not_false, Bool.and_true, if_true]
      exact hskips.symm
  · rfl

/-- The end of an operation forgets the user if the window is closed, and changes nothing else. -/
theorem release_slots (user : String) (site : Site) :
    Ensures (release user) site fun _ later => ∃ slots, later = { site with slots } ∧
      ∀ other, slots[other]? =
        if user = other ∧ site.skipsWrite user = false then none else site.slots[other]? := by
  refine ensures_modify ?_
  cases hwindow : site.skipsWrite user with
  | true => exact ⟨site.slots, rfl, fun other => by simp⟩
  | false => exact ⟨site.slots.erase user, rfl, fun other => by simp [Table.get?_erase]⟩

/-- A read of a user for whom a row is fetched ends as reads of the user do once the cache holds
the frame that they leave. -/
theorem release_hasRead (h : start.HasRead habits users site)
    (hfetches : (start.fetches habits user).isSome = true) {cache : Table Bytes}
    (hothers : ∀ other, other ≠ user → cache[other]? = site.cache[other]?)
    (hframe : cache[user]? = start.frameAfter habits user) :
    Ensures (release user) { site with cache := cache } fun _ later =>
      start.HasRead habits (user :: users) later := by
  have hskips := skipsWrite_of_hasRead h hfetches
  have hwindow : Site.skipsWrite { site with cache := cache } user = start.skipsWrite user := hskips
  refine (release_slots user _).mono fun _ later hcall => ?_
  obtain ⟨slots, rfl, hslots⟩ := hcall
  refine ⟨h.clock, h.settings, h.store, h.published, h.shown, fun other => ?_, fun other => ?_⟩
  · by_cases hsame : other = user
    · subst hsame
      rw [if_pos List.mem_cons_self]
      exact hframe
    · refine (hothers other hsame).trans ?_
      rw [h.cache]
      simp [hsame]
  · rw [hwindow] at hslots
    refine (hslots other).trans ?_
    rw [h.slots]
    by_cases hsame : user = other
    · subst hsame
      cases hopen : start.skipsWrite user <;> simp [slotAfter, hopen, hfetches]
    · simp [hsame, Ne.symm hsame]

/-- Caching a row that was fetched leaves what a read of its user leaves, also where the user
was read before. -/
theorem backfill_hasRead (hkeeps : outside.Keeps habits) (h : start.HasRead habits users site)
    {row : Record} (hfetches : start.fetches habits row.userId = some row) :
    Ensures (backfill outside row) site fun _ later =>
      start.HasRead habits (row.userId :: users) later := by
  have hunseen := (fetches_eq_some_iff.mp hfetches).1
  have hfetched : (start.fetches habits row.userId).isSome = true := by
    rw [hfetches]
    rfl
  refine (cacheGet_sees hkeeps row.userId site).bind fun found looked hcall => ?_
  obtain ⟨hlooked, hsees⟩ := hcall
  have hread := h.fades hkeeps hlooked
  split
  · -- Whoever is seen now and was not at the start has been read in between.
    next known =>
    have hseen : site.sees habits row.userId = some known := (hsees known).mp rfl
    have hmem : row.userId ∈ users := by
      refine Decidable.byContradiction fun hnew => ?_
      rw [h.sees_of_not_mem hnew, hunseen] at hseen
      cases hseen
    exact release_hasRead hread hfetched (fun _ _ => rfl)
      ((hread.cache _).trans (if_pos hmem))
  · refine (cachePut_holds hkeeps row looked).bind fun _ put hcall => ?_
    obtain ⟨faded, hfades, rfl⟩ := hcall
    have hfaded := hread.fades hkeeps hfades
    cases hputs : habits.putsFail row.userId with
    | true =>
      rw [if_pos rfl]
      refine release_hasRead hfaded hfetched (fun _ _ => rfl) ?_
      rw [hfaded.cache]
      simp [frameAfter, hfetches, hputs]
    | false =>
      rw [if_neg Bool.false_ne_true]
      have hothers : ∀ other, other ≠ row.userId →
          (faded.hold row).cache[other]? = faded.cache[other]? := fun other hother => by
        rw [hold, Table.get?_insert, if_neg hother.symm]
      refine release_hasRead hfaded hfetched hothers ?_
      rw [Table.get?_insert, if_pos rfl]
      simp [frameAfter, hfetches, hputs]

/-- A read gives the record that is given of its user, and leaves what it is said to leave. -/
theorem read_hasRead (hkeeps : outside.Keeps habits) (hkeyed : start.store.Keyed)
    (henabled : start.settings.enabled = true) (hvalid : Record.checkUser user = .ok ())
    (h : start.HasRead habits users site) :
    Ensures (read outside user) site fun result later =>
      start.HasRead habits (user :: users) later ∧ start.Answers habits user result := by
  refine ensures_get_bind ?_
  rw [h.settings, henabled, if_neg (by simp)]
  simp only [hvalid]
  refine (cacheGet_sees hkeeps user site).bind fun found looked hcall => ?_
  obtain ⟨hlooked, hsees⟩ := hcall
  have hread := h.fades hkeeps hlooked
  split
  · next record =>
    have hseen : site.sees habits user = some record := (hsees record).mp rfl
    exact ensures_pure ⟨(h.cons_of_sees hseen).fades hkeeps hlooked,
      .given (h.gives_of_sees hseen)⟩
  · next hmiss =>
    have hunseen : start.sees habits user = none := by
      refine h.sees_eq_none (Option.eq_none_iff_forall_ne_some.mpr fun record hseen => ?_)
      exact hmiss record ((hsees record).mpr hseen)
    have hgives : start.gives habits user = start.fetches habits user := by
      rw [gives, hunseen, Option.none_or]
    refine (storeRead_keeps hkeeps rfl (fun store => store.find user) looked).bind
      fun result later hcall => ?_
    obtain ⟨hfades, hresult⟩ := hcall
    have hlater := hread.fades hkeeps hfades
    rw [hread.store] at hresult
    cases hreads : habits.reads with
    | works =>
      rw [hreads] at hresult
      have hfetches : start.fetches habits user = start.store[user]? := by
        rw [fetches, hunseen, hreads]
      rw [hfetches] at hgives
      cases hrow : start.store[user]? with
      | some row =>
        obtain rfl : row.userId = user := hkeyed user row hrow
        rw [(Store.find_eq_ok_iff _ _ _).mpr hrow] at hresult
        subst hresult
        exact (backfill_hasRead hkeeps hlater (hfetches.trans hrow)).bind fun _ last hlast =>
          ensures_pure ⟨hlast, .given (hgives.trans hrow)⟩
      | none =>
        rw [Store.find, hrow] at hresult
        subst hresult
        exact ensures_pure ⟨hlater.cons_of_not_fetches (hfetches.trans hrow),
          .unknown (hgives.trans hrow) (by rw [hreads]; nofun) rfl⟩
    | refuses =>
      rw [hreads] at hresult
      obtain ⟨failure, rfl⟩ := hresult
      have hfetches : start.fetches habits user = none := by rw [fetches, hunseen, hreads]
      have hlast := hlater.cons_of_not_fetches hfetches
      have hnone := hgives.trans hfetches
      dsimp only
      split
      · next hnotFound =>
        exact ensures_pure ⟨hlast, .unknown hnone (by rw [hreads]; nofun) hnotFound⟩
      · exact ensures_pure ⟨hlast, .unknown hnone (by rw [hreads]; nofun) rfl⟩
    | kills =>
      rw [hreads] at hresult
      subst hresult
      have hfetches : start.fetches habits user = none := by rw [fetches, hunseen, hreads]
      exact ensures_pure ⟨hlater.cons_of_not_fetches hfetches, .killed hunseen hreads⟩

/-- The records that several reads gave. Users who are reported to have no status are left out,
and any other failure is passed on. -/
def recordsOf : List (Except Failure Record) → Except Failure (List Record)
  | [] => .ok []
  | .ok record :: rest => (recordsOf rest).map (record :: ·)
  | .error failure :: rest => if failure.isNotFound then recordsOf rest else .error failure

/-- One more read lists the record that it gave, if it gave one. -/
theorem recordsOf_cons_of_answers {result : Except Failure Record}
    (hanswers : start.Answers habits user result) {results : List (Except Failure Record)}
    {rest : List String} (hrest : recordsOf results = start.listing habits rest) :
    recordsOf (result :: results) = start.listing habits (user :: rest) := by
  cases hanswers with
  | given hgives => rw [recordsOf, hrest, listing, hgives]
  | unknown hnone hreads hfailure =>
    rw [recordsOf, if_pos hfailure, hrest, listing, hnone]
    simp [hreads]
  | killed hunseen hkills =>
    have hnone : start.gives habits user = none := by simp [gives, fetches, hunseen, hkills]
    rw [listing, hnone]
    simp [hkills, taskResult, recordsOf, Failure.isNotFound, Failure.taskFailed, Failure.plain]

/-- Reads of several users after one another give what is listed of them, and leave what reads of
these users leave. -/
theorem reads_hasRead (hkeeps : outside.Keeps habits) (hkeyed : start.store.Keyed)
    (henabled : start.settings.enabled = true) {others : List String}
    (hvalid : ∀ user ∈ others, Record.checkUser user = .ok ())
    (h : start.HasRead habits users site) :
    Ensures (others.mapM (read outside)) site fun results later =>
      start.HasRead habits (others ++ users) later ∧
        recordsOf results = start.listing habits others := by
  induction others generalizing users site with
  | nil => exact ⟨h, rfl⟩
  | cons user rest ih =>
    rw [List.mapM_cons]
    refine (read_hasRead hkeeps hkeyed henabled (hvalid user List.mem_cons_self) h).bind
      fun result later hcall => ?_
    obtain ⟨hlater, hanswers⟩ := hcall
    refine (ih (fun other hmem => hvalid other (List.mem_cons_of_mem user hmem)) hlater).bind
      fun results last hcall => ?_
    obtain ⟨hlast, hresults⟩ := hcall
    refine ensures_pure ⟨hlast.of_mem_iff fun other => ?_,
      recordsOf_cons_of_answers hanswers hresults⟩
    simp only [List.mem_append, List.mem_cons, List.cons_append]
    exact or_left_comm

end Engine

end PresenceTracker
