import Mathlib.Data.List.Basic
import PresenceTracker.Proofs.Engine.Habits
import PresenceTracker.Proofs.Engine.Run

/-!
# Reads of several users at once

A read of several users looks each of them up in the cache, asks the store once for those who
are missing, fills the cache with the rows and puts the records into the order of the request.
Where calls always end in the same way, it gives the records that reads of the users one after
another give, each user once, and leaves the same cache and the same slots as they do.
-/

namespace PresenceTracker

namespace Engine

open Site

variable {outside : Outside} {habits : Habits} {start site : Site} {users : List String}
  {user : String}

/-- Leaving out a user for whom nothing is found changes nothing about what is found. -/
theorem filterMap_eraseDups_filter {find : String → Option Record} {user : String}
    (hnone : find user = none) (users : List String) :
    (users.filter fun other => !other == user).eraseDups.filterMap find =
      users.eraseDups.filterMap find := by
  cases users with
  | nil => rfl
  | cons first rest =>
    rw [List.eraseDups_cons, List.filter_cons]
    by_cases hsame : first = user
    · subst hsame
      simp [hnone]
    · -- `eraseDups` goes on with a filtered tail, and so must the induction.
      have hrest := filterMap_eraseDups_filter hnone (rest.filter fun other => !other == first)
      rw [List.filter_filter] at hrest
      simp only [beq_eq_false_iff_ne.mpr hsame, Bool.not_false, if_true, List.eraseDups_cons,
        List.filterMap_cons, List.filter_filter, ← hrest, Bool.and_comm]
termination_by users.length
decreasing_by exact Nat.lt_succ_of_le (List.length_filter_le _ _)

/-- Taking the record of each user at the first place takes what is found of each user once. -/
theorem takeFirst_eq_filterMap (found : Table Record) (users : List String) :
    takeFirst found users = users.eraseDups.filterMap fun user => found[user]? := by
  induction users generalizing found with
  | nil => rfl
  | cons user rest ih =>
    rw [takeFirst, List.eraseDups_cons, List.filterMap_cons]
    cases hfound : found[user]? with
    | none =>
      have hnone : (fun user => found[user]?) user = none := hfound
      rw [filterMap_eraseDups_filter hnone]
      exact ih found
    | some record =>
      have hnone : (fun other => (found.erase user)[other]?) user = none := by simp
      dsimp only
      rw [ih, ← filterMap_eraseDups_filter hnone]
      refine congrArg (record :: ·) (List.filterMap_congr fun other hmem => ?_)
      have hother : other ≠ user := by
        simpa using (List.mem_filter.mp (List.mem_eraseDups.mp hmem)).2
      rw [Table.get?_erase, if_neg hother.symm]

/-- What look-ups of some users have found, and who of them is missing. -/
structure Gathers (habits : Habits) (start : Site) (users : List String)
    (gathered : Gathered) : Prop where
  /-- The records found are those that are seen. -/
  found : ∀ user, gathered.found[user]? =
    if user ∈ users then start.sees habits user else none
  /-- Whoever is not seen is missing. -/
  missing : ∀ user, user ∈ gathered.missing ↔ user ∈ users ∧ start.sees habits user = none

namespace Gathers

variable {gathered : Gathered}

/-- A user who was looked up before may be looked up again. -/
theorem cons_of_mem (h : Gathers habits start users gathered) (hmem : user ∈ users) :
    Gathers habits start (user :: users) gathered := by
  have hsame : ∀ other, other ∈ user :: users ↔ other ∈ users := fun other =>
    ⟨fun hother => (List.mem_cons.mp hother).elim (· ▸ hmem) id, List.mem_cons_of_mem user⟩
  exact ⟨by simpa only [hsame] using h.found, by simpa only [hsame] using h.missing⟩

/-- A user who is seen is found, and nobody else is. -/
theorem cons_of_seen (h : Gathers habits start users gathered) {record : Record}
    (hseen : start.sees habits user = some record) :
    Gathers habits start (user :: users)
      { gathered with found := gathered.found.insert user record } where
  found other := by
    rw [Table.get?_insert, h.found]
    by_cases hsame : user = other
    · subst hsame
      simp [hseen]
    · simp [hsame, Ne.symm hsame]
  missing other := by
    rw [h.missing, List.mem_cons]
    refine and_congr_left fun hnone => (or_iff_right ?_).symm
    rintro rfl
    rw [hseen] at hnone
    cases hnone

/-- A user who is not seen is missing, and nobody else is. -/
theorem cons_of_unseen (h : Gathers habits start users gathered)
    (hunseen : start.sees habits user = none) :
    Gathers habits start (user :: users)
      { gathered with missing := gathered.missing ++ [user] } where
  found other := by
    rw [h.found]
    by_cases hsame : other = user
    · subst hsame
      simp [hunseen]
    · simp [hsame]
  missing other := by
    rw [List.mem_append, List.mem_singleton, h.missing, List.mem_cons]
    constructor
    · rintro (⟨hmem, hnone⟩ | rfl)
      · exact ⟨.inr hmem, hnone⟩
      · exact ⟨.inl rfl, hunseen⟩
    · rintro ⟨rfl | hmem, hnone⟩
      · exact .inr rfl
      · exact .inl ⟨hmem, hnone⟩

end Gathers

/-- A look-up of one of several users finds what is seen of the user. -/
theorem gatherOne_gathers (hkeeps : outside.Keeps habits) (h : start.HasRead habits [] site)
    {gathered : Gathered} (hgathers : Gathers habits start users gathered) (user : String) :
    Ensures (gatherOne outside gathered user) site fun gathered later =>
      start.HasRead habits [] later ∧ Gathers habits start (user :: users) gathered := by
  unfold gatherOne
  split
  · next hcontains =>
    rw [Std.ExtTreeMap.contains_eq_isSome_getElem?, hgathers.found] at hcontains
    have hmem : user ∈ users := by
      refine Decidable.byContradiction fun hnew => ?_
      rw [if_neg hnew] at hcontains
      cases hcontains
    exact ensures_pure ⟨h, hgathers.cons_of_mem hmem⟩
  · refine (cacheGet_sees hkeeps user site).bind fun found looked hcall => ?_
    obtain ⟨hlooked, hsees⟩ := hcall
    have hlater := h.fades hkeeps hlooked
    rw [h.sees_of_not_mem List.not_mem_nil] at hsees
    split
    · next record =>
      exact ensures_pure ⟨hlater, hgathers.cons_of_seen ((hsees record).mp rfl)⟩
    · next hmiss =>
      have hunseen : start.sees habits user = none :=
        Option.eq_none_iff_forall_ne_some.mpr fun record hseen =>
          hmiss record ((hsees record).mpr hseen)
      exact ensures_pure ⟨hlater, hgathers.cons_of_unseen hunseen⟩

/-- The look-ups of several users find what is seen of them. -/
theorem gatherAll_gathers (hkeeps : outside.Keeps habits) (h : start.HasRead habits [] site)
    {gathered : Gathered} (hgathers : Gathers habits start users gathered)
    (others : List String) :
    Ensures (others.foldlM (gatherOne outside) gathered) site fun gathered later =>
      start.HasRead habits [] later ∧ Gathers habits start (others.reverse ++ users) gathered := by
  induction others generalizing gathered users site with
  | nil => exact ⟨h, hgathers⟩
  | cons user rest ih =>
    rw [List.foldlM_cons]
    refine (gatherOne_gathers hkeeps h hgathers user).bind fun gathered later hcall => ?_
    refine (ih hcall.1 hcall.2).mono fun gathered last hlast => ?_
    rw [List.reverse_cons, List.append_assoc, List.singleton_append]
    exact hlast

/-- Taking the rows that were fetched leaves what reads of their users leave, and finds them. -/
theorem gatherAllStored_hasRead (hkeeps : outside.Keeps habits)
    (h : start.HasRead habits users site) {records : List Record}
    (hrecords : ∀ row ∈ records, start.fetches habits row.userId = some row)
    (found : Table Record) :
    Ensures (records.foldlM (gatherStored outside) found) site fun later site' =>
      start.HasRead habits (records.map Record.userId ++ users) site' ∧
        ∀ user, later[user]? = if user ∈ records.map Record.userId then start.fetches habits user
          else found[user]? := by
  induction records generalizing found users site with
  | nil => exact ⟨h, fun user => (if_neg List.not_mem_nil).symm⟩
  | cons row rest ih =>
    have hrow := hrecords row List.mem_cons_self
    rw [List.foldlM_cons]
    have hfirst : Ensures (gatherStored outside found row) site fun later site' =>
        start.HasRead habits (row.userId :: users) site' ∧
          later = found.insert row.userId row :=
      (backfill_hasRead hkeeps h hrow).bind fun _ _ hlater => ensures_pure ⟨hlater, rfl⟩
    refine hfirst.bind fun found' filled hcall => ?_
    obtain ⟨hfilled, rfl⟩ := hcall
    refine (ih hfilled (fun other hmem => hrecords other (List.mem_cons_of_mem row hmem)) _).mono
      fun later last hcall => ⟨hcall.1.of_mem_iff fun other => ?_, fun other => ?_⟩
    · simp only [List.mem_append, List.mem_cons, List.map_cons, List.cons_append]
      exact or_left_comm
    · rw [hcall.2, Table.get?_insert, List.map_cons]
      by_cases hsame : row.userId = other
      · subst hsame
        simp [hrow]
      · simp [hsame, Ne.symm hsame]

/-- What was found is listed if it is what is given of each user, and no read kills the task. -/
theorem takeFirst_eq_listing {found : Table Record}
    (hfound : ∀ user ∈ users, found[user]? = start.gives habits user)
    (hspared : habits.reads = .kills → ∀ user ∈ users, (start.gives habits user).isSome = true) :
    Except.ok (takeFirst found users) = start.listing habits users.eraseDups := by
  rw [takeFirst_eq_filterMap, listing_of_given fun hkills user hmem =>
    hspared hkills user (List.mem_eraseDups.mp hmem)]
  exact congrArg Except.ok (List.filterMap_congr fun user hmem =>
    hfound user (List.mem_eraseDups.mp hmem))

namespace Gathers

variable {gathered : Gathered}

/-- The rows of the users who are missing are fetched. -/
theorem fetches_of_rows (h : Gathers habits start users gathered) (hkeyed : start.store.Keyed)
    (hworks : habits.reads = .works) {row : Record}
    (hrow : row ∈ start.store.findMany gathered.missing) :
    row.userId ∈ users ∧ start.fetches habits row.userId = some row := by
  obtain ⟨user, hmissing, hstored⟩ := List.mem_filterMap.mp hrow
  obtain rfl : row.userId = user := hkeyed user row hstored
  obtain ⟨hmem, hunseen⟩ := (h.missing _).mp hmissing
  exact ⟨hmem, fetches_eq_some_iff.mpr ⟨hunseen, hworks, hstored⟩⟩

/-- Of nobody else anything is fetched. -/
theorem fetches_of_no_row (h : Gathers habits start users gathered) (hkeyed : start.store.Keyed)
    (hmem : user ∈ users)
    (hnew : user ∉ (start.store.findMany gathered.missing).map Record.userId) :
    start.fetches habits user = none := by
  refine Option.eq_none_iff_forall_ne_some.mpr fun row hfetches => hnew ?_
  obtain ⟨hunseen, -, hrow⟩ := fetches_eq_some_iff.mp hfetches
  rw [← hkeyed user row hrow]
  exact List.mem_map_of_mem
    (List.mem_filterMap.mpr ⟨user, (h.missing user).mpr ⟨hmem, hunseen⟩, hrow⟩)

/-- What was found of a user of whom nothing is fetched is what is given. -/
theorem found_eq_gives (h : Gathers habits start users gathered) (hmem : user ∈ users)
    (hnone : start.fetches habits user = none) :
    gathered.found[user]? = start.gives habits user := by
  rw [h.found, if_pos hmem, gives_of_not_fetches hnone]

/-- What was found is listed where nothing is fetched of the users, and no read kills the task or
all of them are seen. -/
theorem hasRead_of_not_fetches (h : Gathers habits start users gathered)
    (hlater : start.HasRead habits [] site)
    (hfetches : ∀ user ∈ users, start.fetches habits user = none)
    (hspared : habits.reads = .kills → ∀ user ∈ users, start.sees habits user ≠ none) :
    start.HasRead habits users site ∧
      Except.ok (takeFirst gathered.found users) = start.listing habits users.eraseDups := by
  refine ⟨hlater.widen (fun _ => nofun) fun user hmem _ => hfetches user hmem,
    takeFirst_eq_listing (fun user hmem => h.found_eq_gives hmem (hfetches user hmem))
      fun hkills user hmem => ?_⟩
  rw [gives_of_not_fetches (hfetches user hmem)]
  exact Option.isSome_iff_ne_none.mpr (hspared hkills user hmem)

/-- Where reads of the store kill the task, it is killed as soon as somebody is missing. -/
theorem hasRead_of_kills (h : Gathers habits start users gathered)
    (hlater : start.HasRead habits [] site) (hkills : habits.reads = .kills)
    (hsome : gathered.missing ≠ []) :
    start.HasRead habits users site ∧
      taskResult (.error .killed) = start.listing habits users.eraseDups := by
  have hfetches : ∀ user, start.fetches habits user = none := fun user =>
    fetches_of_reads (by rw [hkills]; exact nofun)
  refine ⟨hlater.widen (fun _ => nofun) fun user _ _ => hfetches user, ?_⟩
  obtain ⟨user, hmissing⟩ := List.exists_mem_of_ne_nil _ hsome
  obtain ⟨hmem, hunseen⟩ := (h.missing user).mp hmissing
  exact (listing_of_killed hkills (List.mem_eraseDups.mpr hmem)
    ((gives_of_not_fetches (hfetches user)).trans hunseen)).symm

end Gathers

/-- After the look-ups the rows of the missing users are fetched, and what is given of each user
is taken. -/
theorem fetchMissing_hasRead (hkeeps : outside.Keeps habits) (hkeyed : start.store.Keyed)
    (hworks : habits.reads = .works) {gathered : Gathered}
    (hgathers : Gathers habits start users gathered) (h : start.HasRead habits [] site) :
    Ensures (do
        let found ← (start.store.findMany gathered.missing).foldlM (gatherStored outside)
          gathered.found
        return Except.ok (takeFirst found users)) site fun result later =>
      start.HasRead habits users later ∧ result = start.listing habits users.eraseDups := by
  have hrows : ∀ row ∈ start.store.findMany gathered.missing,
      row.userId ∈ users ∧ start.fetches habits row.userId = some row := fun _ hrow =>
    hgathers.fetches_of_rows hkeyed hworks hrow
  refine (gatherAllStored_hasRead hkeeps h (fun row hrow => (hrows row hrow).2)
    gathered.found).bind fun found last hcall => ?_
  obtain ⟨hlast, hfinds⟩ := hcall
  rw [List.append_nil] at hlast
  refine ensures_pure ⟨hlast.widen (fun user hmem => ?_) fun user hmem hnew =>
    hgathers.fetches_of_no_row hkeyed hmem hnew, takeFirst_eq_listing (fun user hmem => ?_) ?_⟩
  · obtain ⟨row, hrow, rfl⟩ := List.mem_map.mp hmem
    exact (hrows row hrow).1
  · rw [hfinds]
    split
    · next hfetched =>
      obtain ⟨row, hrow, rfl⟩ := List.mem_map.mp hfetched
      have hunseen := (fetches_eq_some_iff.mp (hrows row hrow).2).1
      rw [gives, hunseen, Option.none_or]
    · next hnew => exact hgathers.found_eq_gives hmem (hgathers.fetches_of_no_row hkeyed hmem hnew)
  · rw [hworks]
    intro hkills
    cases hkills

/-- A read of several users gives what is listed of them, each once, and leaves what reads of them
leave. -/
theorem readMany_hasRead (hkeeps : outside.Keeps habits) (hkeyed : start.store.Keyed)
    (henabled : start.settings.enabled = true) (users : List String) :
    Ensures (readMany outside users) start fun result later => start.HasRead habits users later ∧
      result = start.listing habits users.eraseDups := by
  refine ensures_get_bind ?_
  rw [henabled, if_neg (by simp)]
  have hnobody : Gathers habits start [] {} := ⟨fun user => by simp, fun user => by simp⟩
  refine (gatherAll_gathers hkeeps (.refl habits start) hnobody users).bind
    fun gathered looked hcall => ?_
  rw [List.append_nil] at hcall
  obtain ⟨hlooked, hreversed⟩ := hcall
  have hgathers : Gathers habits start users gathered :=
    ⟨by simpa using hreversed.found, by simpa using hreversed.missing⟩
  split
  · next hnone =>
    have hseen : ∀ user ∈ users, start.sees habits user ≠ none := by
      intro user hmem hunseen
      have hmissing := (hgathers.missing user).mpr ⟨hmem, hunseen⟩
      rw [List.isEmpty_iff.mp hnone] at hmissing
      exact List.not_mem_nil hmissing
    exact ensures_pure (hgathers.hasRead_of_not_fetches hlooked
      (fun user hmem => fetches_of_sees (hseen user hmem)) fun _ => hseen)
  · next hsome =>
    refine (storeRead_keeps hkeeps rfl (fun store => .ok (store.findMany gathered.missing))
      looked).bind fun result later hcall => ?_
    obtain ⟨hfades, hresult⟩ := hcall
    have hlater := hlooked.fades hkeeps hfades
    rw [hlooked.store] at hresult
    cases hreads : habits.reads with
    | works =>
      rw [hreads] at hresult
      subst hresult
      exact fetchMissing_hasRead hkeeps hkeyed hreads hgathers hlater
    | refuses =>
      rw [hreads] at hresult
      obtain ⟨failure, rfl⟩ := hresult
      exact ensures_pure (hgathers.hasRead_of_not_fetches hlater
        (fun _ _ => fetches_of_reads (by rw [hreads]; exact nofun)) (by rw [hreads]; exact nofun))
    | kills =>
      rw [hreads] at hresult
      subst hresult
      exact ensures_pure (hgathers.hasRead_of_kills hlater hreads fun hempty =>
        hsome (List.isEmpty_iff.mpr hempty))

end Engine

namespace Site

variable {outside : Outside} {habits : Habits} {site bulk singly : Site} {users : List String}

/-- Whichever way some users were read, the cache is the same. -/
theorem HasRead.cache_eq (h : site.HasRead habits users bulk)
    (h' : site.HasRead habits users singly) : bulk.cache = singly.cache :=
  Std.ExtTreeMap.ext_getElem? fun user => (h.cache user).trans (h'.cache user).symm

/-- Whichever way some users were read, the slots are the same. -/
theorem HasRead.slots_eq (h : site.HasRead habits users bulk)
    (h' : site.HasRead habits users singly) : bulk.slots = singly.slots :=
  Std.ExtTreeMap.ext_getElem? fun user => (h.slots user).trans (h'.slots user).symm

/-- A slot stands, or it is that of a user who was read and its window is closed. -/
theorem HasRead.slot_stands_or (h : site.HasRead habits users bulk) (user : String) :
    bulk.slots[user]? = site.slots[user]? ∨
      bulk.slots[user]? = none ∧ user ∈ users ∧ site.skipsWrite user = false := by
  rw [h.slots]
  by_cases hmem : user ∈ users
  · rw [if_pos hmem, slotAfter]
    cases hwindow : site.skipsWrite user with
    | true => simp
    | false => cases hfetches : site.fetches habits user <;> simp [hmem]
  · exact .inl (if_neg hmem)

/-- Where calls always end in the same way, a read of several users gives the records that reads
of the distinct users give one after another, in the order of the request and without those who
are reported to have no status. It is refused only if reads of the store kill the task. It leaves
the same cache and the same slots as the single reads, neither writes a row nor lets anything out,
and forgets at most slots of users it was asked for whose windows are closed. -/
theorem readMany_matches_reads (hkeeps : outside.Keeps habits) (hkeyed : site.store.Keyed)
    (henabled : site.settings.enabled = true) (users : List String)
    (hvalid : ∀ user ∈ users, Record.checkUser user = .ok ()) :
    Ensures (Engine.readMany outside users) site fun result bulk =>
      Ensures (users.eraseDups.mapM (Engine.read outside)) site fun results singly =>
        result = Engine.recordsOf results ∧
          (habits.reads ≠ .kills → ∃ records, result = .ok records) ∧
            bulk.cache = singly.cache ∧ bulk.slots = singly.slots ∧
              bulk.store = site.store ∧ bulk.published = site.published ∧
                bulk.shown = site.shown ∧
                  ∀ user, bulk.slots[user]? = site.slots[user]? ∨
                    bulk.slots[user]? = none ∧ user ∈ users ∧ site.skipsWrite user = false := by
  refine (Engine.readMany_hasRead hkeeps hkeyed henabled users).mono fun result bulk hcall => ?_
  obtain ⟨hbulk, rfl⟩ := hcall
  refine (Engine.reads_hasRead hkeeps hkeyed henabled (fun user hmem => ?_)
    (.refl habits site)).mono fun results singly hcall => ?_
  · exact hvalid user (List.mem_eraseDups.mp hmem)
  · obtain ⟨hreads, hresults⟩ := hcall
    have hsingly : site.HasRead habits users singly := hreads.of_mem_iff fun user => by
      rw [List.append_nil, List.mem_eraseDups]
    have hgiven : habits.reads ≠ .kills →
        ∃ records, site.listing habits users.eraseDups = .ok records := fun hspared =>
      ⟨_, listing_of_given fun hkills => absurd hkills hspared⟩
    exact ⟨hresults.symm, hgiven, hbulk.cache_eq hsingly, hbulk.slots_eq hsingly, hbulk.store,
      hbulk.published, hbulk.shown, hbulk.slot_stands_or⟩

/-- Look-ups of one user fail, and so do writes of another one's entry. -/
def patchyHabits : Habits where
  looksFail user := user == "bob"
  putsFail user := user == "cy"
  reads := .works

/-- The calls that end as `patchyHabits` has them. -/
def patchy : Outside where
  storeFault _ _ := none
  cacheFault
    | _, .get user => if user == "bob" then some .timedOut else none
    | _, .put record => if record.userId == "cy" then some .timedOut else none
    | _, _ => none
  vanishes _ _ := false

theorem patchy_keeps : patchy.Keeps patchyHabits where
  stays _ _ := rfl
  looks _ user := by
    show (if user == "bob" then some Failure.timedOut else none).isSome = (user == "bob")
    cases user == "bob" <;> rfl
  puts _ record := by
    show (if record.userId == "cy" then some Failure.timedOut else none).isSome =
      (record.userId == "cy")
    cases record.userId == "cy" <;> rfl
  reads _ _ _ := rfl

/-- A node that has cached one of three users who have a status. -/
def halfCached : Site where
  clock := 5000
  store := (((∅ : Store).insert "ada" (.offlineDefault "ada")).insert "bob"
    (.offlineDefault "bob")).insert "cy" (.offlineDefault "cy")
  cache := (∅ : Table Bytes).insert "ada" (FrameCodec.record.encode (.offlineDefault "ada"))

theorem halfCached_keyed : halfCached.store.Keyed := by
  have huser : ∀ user, (Record.offlineDefault user).userId = user := fun _ => rfl
  exact ((Store.keyed_empty.insert (huser "ada")).insert (huser "bob")).insert (huser "cy")

/-- A user who is seen, one whose look-up fails, one who cannot be cached and one without a
status, some of them asked for twice. -/
theorem readMany_matches_reads_halfCached :
    Ensures (Engine.readMany patchy ["cy", "dan", "ada", "cy", "bob", "ada"]) halfCached
      fun result later =>
        result = .ok [.offlineDefault "cy", .offlineDefault "ada", .offlineDefault "bob"] ∧
          later.cache["bob"]? = some (FrameCodec.record.encode (.offlineDefault "bob")) ∧
            later.cache["cy"]? = none := by
  have hreads := readMany_matches_reads patchy_keeps halfCached_keyed rfl
    ["cy", "dan", "ada", "cy", "bob", "ada"] (by decide +kernel)
  obtain ⟨hresult, -, hcache, -⟩ := hreads
  refine ⟨hresult.trans ?_, hcache ▸ ?_, hcache ▸ ?_⟩ <;> decide +kernel

/-- A node that knows when it last wrote a user whose entry its cache has lost, and whose window
is closed by now. -/
def lapsed : Site :=
  blank.after .calm [.operation (.change "ada" (.online true)), .incident (.setClock 75000),
    .incident (.vanish "ada")]

/-- A read of several users can forget when one of them was last written. -/
theorem readMany_forgets_slot :
    ¬∀ (site : Site) (users : List String), site.InStep → site.settings.enabled = true →
      (∀ user ∈ users, Record.checkUser user = .ok ()) →
        Ensures (Engine.readMany .calm users) site fun _ later => later.slots = site.slots := by
  intro hclaim
  have hslots := hclaim lapsed ["ada"] (blank_inStep.after (fun _ _ => rfl) _)
    (by decide +kernel) (by decide +kernel)
  have hknown : lapsed.slots["ada"]? = some 5000 := by decide +kernel
  have hforgotten : ((Engine.readMany .calm ["ada"]).run lapsed).2.slots["ada"]? = none := by
    decide +kernel
  have hkept : ((Engine.readMany .calm ["ada"]).run lapsed).2.slots = lapsed.slots := hslots
  rw [hkept, hknown] at hforgotten
  cases hforgotten

end Site

end PresenceTracker
