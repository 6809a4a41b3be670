import PresenceTracker.Proofs.Cache.Pool
import PresenceTracker.Proofs.Cache.Shelf

/-!
# Caches in memory remember what they are to remember

The pool under a cache in memory shows every live entry of the shelf of the cache, and holds no key
that is not on the shelf. So all answers of the cache are right but one: it counts every live entry,
and may count entries besides that have expired.
-/

namespace PresenceTracker.MemoryCache

variable {σ : Type} {pool : Pool σ} {holds : σ → String → Prop}

/-- A cache that was built as `fresh` remembers at a moment what its shelf says. -/
structure Follows (pool : Pool σ) (holds : σ → String → Prop) (fresh cache : MemoryCache σ)
    (shelf : Shelf) (now : Duration) : Prop where
  /-- Values live as long by default. -/
  defaultTtl : cache.defaultTtl = fresh.defaultTtl
  /-- Its calls do not fail. -/
  faults : cache.faults = []
  /-- Its pool shows what is live on the shelf, and holds no keys that are not on it. -/
  shows : pool.Shows holds now (fun moment key => shelf[key]?.bind fun entry => entry.at? moment)
    (fun key => shelf[key]? ≠ none) cache.held

/-- What a cache in memory tells is right, but that the number of entries may be too large by some
that have expired. -/
def TellsNearly (shelf : Shelf) (now : Duration) (request : CacheRequest)
    (response : CacheResponse) : Prop :=
  if request = .size then
    ∃ count, response = .size count ∧ (shelf.live now).size ≤ count ∧ count ≤ shelf.size
  else response.Alike (shelf.response now request)

/-- What a cache tells is right for every request but for the number of its entries, and for that
as well where none has expired. -/
theorem TellsNearly.alike {shelf : Shelf} {now : Duration} {request : CacheRequest}
    {response : CacheResponse} (h : TellsNearly shelf now request response)
    (hsettled : request ≠ .size ∨ ∀ (key : String) (entry : CacheEntry),
      shelf[key]? = some entry → entry.isLive now = true) :
    response.Alike (shelf.response now request) := by
  unfold TellsNearly at h
  split at h
  · next hsize =>
    obtain ⟨count, rfl, hlow, hhigh⟩ := h
    have hlive := hsettled.resolve_left (not_not_intro hsize)
    rw [Shelf.live_eq_self hlive] at hlow
    rw [hsize, Shelf.response, Shelf.live_eq_self hlive, Nat.le_antisymm hhigh hlow]
    exact .refl _
  · exact h

/-- A cache whose calls do not fail has its pool do what it asks for. -/
theorem ask_of_faultless {α : Type} {cache : MemoryCache σ} (h : cache.faults = [])
    (method : CacheMethod) (work : StateM σ α) :
    cache.ask method work =
      (.ok (work.run cache.held).1, { cache with held := (work.run cache.held).2 }) := by
  rw [ask, h]
  rfl

namespace Follows

variable {fresh cache : MemoryCache σ} {shelf : Shelf} {now later : Duration}

/-- A cache before its first call has an empty shelf. -/
theorem start (hpool : pool.Documented holds) {built : Duration} (hnow : built ≤ now)
    (hheld : fresh.held = pool.build built) (hfaults : fresh.faults = []) :
    Follows pool holds fresh fresh ∅ now where
  defaultTtl := rfl
  faults := hfaults
  shows := by
    rw [hheld]
    have hbuilt := hpool.build built
    refine ⟨fun moment key hmoment => ?_, fun key hheld => (hbuilt.held key hheld).elim⟩
    rw [hbuilt.found moment key (Nat.le_trans hnow hmoment)]
    simp

/-- What is remembered at a moment is remembered later on. -/
theorem passes (h : Follows pool holds fresh cache shelf now) (hlater : now ≤ later) :
    Follows pool holds fresh cache shelf later :=
  { h with shows := ⟨fun moment key hmoment =>
      h.shows.found moment key (Nat.le_trans hlater hmoment), h.shows.held⟩ }

/-- A pool that shows the same as before shows what is on the shelf. -/
theorem keeps (h : Follows pool holds fresh cache shelf now) {held : σ}
    (hkeeps : pool.Shows holds now (pool.find cache.held) (holds cache.held) held) :
    Follows pool holds fresh { cache with held } shelf now :=
  { h with shows := hkeeps.congr h.shows.found h.shows.held }

/-- A pool in which a key was written shows the entry that was put on the shelf. -/
theorem writes (h : Follows pool holds fresh cache shelf now) {held : σ} {key : String}
    {entry : CacheEntry}
    (hwrites : pool.Shows holds now
      (fun moment other => if other = key then entry.at? moment
        else pool.find cache.held moment other)
      (fun other => other = key ∨ holds cache.held other) held) :
    Follows pool holds fresh { cache with held } (shelf.insert key entry) now := by
  refine { h with shows := hwrites.congr (fun moment other hmoment => ?_) fun other hheld => ?_ }
  · rw [Table.get?_insert, h.shows.found moment other hmoment]
    by_cases hsame : other = key
    · rw [if_pos hsame, if_pos hsame.symm, Option.bind_some]
    · rw [if_neg hsame, if_neg (Ne.symm hsame)]
  · rw [Table.get?_insert]
    split
    · nofun
    · next hne => exact h.shows.held other (hheld.resolve_left (Ne.symm hne))

/-- A pool from which a key was removed shows what is on the shelf without the key. -/
theorem removes (h : Follows pool holds fresh cache shelf now) {held : σ} {key : String}
    (hremoves : pool.Shows holds now
      (fun moment other => if other = key then none else pool.find cache.held moment other)
      (fun other => other ≠ key ∧ holds cache.held other) held) :
    Follows pool holds fresh { cache with held } (shelf.erase key) now := by
  refine { h with shows := hremoves.congr (fun moment other hmoment => ?_) fun other hheld => ?_ }
  · rw [Table.get?_erase, h.shows.found moment other hmoment]
    by_cases hsame : other = key
    · rw [if_pos hsame, if_pos hsame.symm, Option.bind_none]
    · rw [if_neg hsame, if_neg (Ne.symm hsame)]
  · rw [Table.get?_erase, if_neg (Ne.symm hheld.1)]
    exact h.shows.held other hheld.2

/-- A pool that was emptied shows what is on an empty shelf. -/
theorem empties (h : Follows pool holds fresh cache shelf now) {held : σ}
    (hempty : pool.Shows holds now (fun _ _ => none) (fun _ => False) held) :
    Follows pool holds fresh { cache with held } ∅ now :=
  { h with shows := hempty.congr (fun moment key _ => by simp) fun _ hfalse => hfalse.elim }

/-- What the pool finds is live on the shelf. -/
theorem find_eq (h : Follows pool holds fresh cache shelf now) (key : String) :
    pool.find cache.held now key = (shelf.live now)[key]?.map CacheEntry.value := by
  rw [h.shows.found now key (Nat.le_refl now), Shelf.map_value_live]

/-- The keys that the pool has a value for are live on the shelf. -/
theorem isSome_find_iff (h : Follows pool holds fresh cache shelf now) (key : String) :
    (pool.find cache.held now key).isSome = true ↔ key ∈ (shelf.live now).keys := by
  rw [h.find_eq, Option.isSome_map, Shelf.mem_keys_live]

/-- A write of a value with a lifetime goes to the pool and on the shelf. -/
theorem set (hpool : pool.Documented holds) (h : Follows pool holds fresh cache shelf now)
    (key : String) (value : Bytes) (lifetime : Duration) :
    (cache.set pool now key value lifetime).1 = .ok () ∧
      Follows pool holds fresh (cache.set pool now key value lifetime).2
        (shelf.insert key (.written value now lifetime)) now := by
  rw [MemoryCache.set, ask_of_faultless h.faults]
  refine ⟨rfl, ?_⟩
  obtain ⟨kept, hkept, hwrites⟩ := hpool.insert expiry now key
    ⟨value, if lifetime = 0 then none else some lifetime⟩ cache.held
  have hlifetime : kept = if lifetime = 0 then none else some lifetime := by
    rcases hkept with hcreated | ⟨rest, hupdated⟩
    · exact hcreated
    · exact hupdated
  have hentry : (⟨value, kept.map (now + ·)⟩ : CacheEntry) = .written value now lifetime := by
    rw [CacheEntry.written, hlifetime]
    split <;> rfl
  rw [← hentry]
  exact h.writes hwrites

/-- A cache answers every request but the check of its backend, and remembers what it is to
remember. -/
theorem answer (hpool : pool.Documented holds) (h : Follows pool holds fresh cache shelf now)
    {request : CacheRequest} (hrequest : request ≠ .health) :
    ∃ response, (cache.answer pool now request).1 = .ok response ∧
      TellsNearly shelf now request response ∧
      Follows pool holds fresh (cache.answer pool now request).2
        (shelf.after fresh.defaultTtl now request) now := by
  have hdone : CacheResponse.done.Alike .done := .refl .done
  cases request with
  | get key =>
    rw [MemoryCache.answer, MemoryCache.get, ask_of_faultless h.faults]
    exact ⟨_, rfl, congrArg CacheResponse.value (h.find_eq key),
      h.keeps (hpool.get now key cache.held)⟩
  | set key value lifetime =>
    obtain ⟨hok, hfollows⟩ := h.set hpool key value lifetime
    exact ⟨.done, congrArg (Except.map fun _ => CacheResponse.done) hok, hdone, hfollows⟩
  | setDefault key value =>
    obtain ⟨hok, hfollows⟩ := h.set hpool key value cache.defaultTtl
    exact ⟨.done, congrArg (Except.map fun _ => CacheResponse.done) hok, hdone,
      h.defaultTtl ▸ hfollows⟩
  | remove key =>
    rw [MemoryCache.answer, MemoryCache.remove, ask_of_faultless h.faults]
    exact ⟨_, rfl, hdone, h.removes (hpool.remove now key cache.held)⟩
  | purge =>
    rw [MemoryCache.answer, MemoryCache.purge, ask_of_faultless h.faults]
    have hpurge : Ensures (do pool.dropAll now; pool.tend now) cache.held fun _ later =>
        pool.Shows holds now (fun _ _ => none) (fun _ => False) later :=
      (hpool.dropAll now cache.held).bind fun _ dropped hdropped =>
        (hpool.tend now dropped).mono fun _ _ htended =>
          htended.1.congr hdropped.found hdropped.held
    exact ⟨_, rfl, hdone, h.empties hpurge⟩
  | keys =>
    rw [MemoryCache.answer, MemoryCache.keys, ask_of_faultless h.faults]
    obtain ⟨hnodup, hmem, hkeeps⟩ := hpool.list now cache.held
    refine ⟨_, rfl, ?_, h.keeps hkeeps⟩
    refine (List.perm_ext_iff_of_nodup hnodup Std.ExtTreeMap.nodup_keys).mpr fun key => ?_
    rw [hmem, h.isSome_find_iff]
  | size =>
    rw [MemoryCache.answer, MemoryCache.size, ask_of_faultless h.faults]
    obtain ⟨hkeeps, hlow, hhigh⟩ := hpool.tend now cache.held
    refine ⟨_, rfl, ⟨_, rfl, ?_, ?_⟩, h.keeps hkeeps⟩
    · rw [← Std.ExtTreeMap.length_keys]
      exact hlow _ Std.ExtTreeMap.nodup_keys fun key hmem => (h.isSome_find_iff key).mpr hmem
    · rw [← Std.ExtTreeMap.length_keys]
      refine hhigh _ fun key hheld => ?_
      rw [Std.ExtTreeMap.mem_keys, Std.ExtTreeMap.mem_iff_isSome_getElem?,
        Option.isSome_iff_ne_none]
      exact h.shows.held key (hkeeps.held key hheld)
  | health => exact absurd rfl hrequest

end Follows

end PresenceTracker.MemoryCache
