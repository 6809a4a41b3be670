import Mathlib.Data.List.Perm.Subperm
import PresenceTracker.Cache.Wheel
import PresenceTracker.Proofs.Engine.Ensures
import PresenceTracker.Proofs.Store.Rows

/-!
# What a pool does

A pool keeps values under keys, each for as long as a policy says at the last write. What it is
said to do speaks of the values that can be found from then on, and of the keys that it may still
hold. Which of those that have expired it has got rid of is left open, and with it the number of
values that it counts: that is known to lie between the number of the values that can be found
and the number of the keys that it holds. What is said of a pool holds as long as there is room in
it. The pool that gets rid of values in turns is one that does all this.
-/

namespace PresenceTracker

namespace Pool

variable {σ : Type}

/-- The value that a key has at a moment, if nothing else is asked of the pool. -/
def find (pool : Pool σ) (state : σ) (moment : Duration) (key : String) : Option Bytes :=
  ((pool.get moment key).run state).1.map TimedValue.value

/-- From a moment on keys have the values that are shown, and no others may be held than those
that are listed. -/
structure Shows (pool : Pool σ) (holds : σ → String → Prop) (now : Duration)
    (shown : Duration → String → Option Bytes) (held : String → Prop) (state : σ) : Prop where
  /-- The value of a key. -/
  found : ∀ moment key, now ≤ moment → pool.find state moment key = shown moment key
  /-- The keys that may be held. -/
  held : ∀ key, holds state key → held key

/-- What a pool does, as it is documented. Which keys a state holds, whether or not their values
have expired, is given by `holds`. -/
structure Documented (pool : Pool σ) (holds : σ → String → Prop) : Prop where
  /-- A new pool is empty. -/
  build : ∀ now, pool.Shows holds now (fun _ _ => none) (fun _ => False) (pool.build now)
  /-- A look-up changes no values. -/
  get : ∀ now key state, Ensures (pool.get now key) state fun _ later =>
    pool.Shows holds now (pool.find state) (holds state) later
  /-- A write gives a key a value, for as long as the policy says. -/
  insert : ∀ policy now key written state, ∃ lifetime,
    (lifetime = policy.afterCreate written ∨ ∃ rest, lifetime = policy.afterUpdate written rest) ∧
    Ensures (pool.insert policy now key written) state fun _ later =>
      pool.Shows holds now
        (fun moment other => if other = key then
          CacheEntry.at? ⟨written.value, lifetime.map (now + ·)⟩ moment
          else pool.find state moment other)
        (fun other => other = key ∨ holds state other) later
  /-- A removal takes the value of a key away. -/
  remove : ∀ now key state, Ensures (pool.remove now key) state fun _ later =>
    pool.Shows holds now (fun moment other => if other = key then none
      else pool.find state moment other) (fun other => other ≠ key ∧ holds state other) later
  /-- All values can be taken away at once. -/
  dropAll : ∀ now state, Ensures (pool.dropAll now) state fun _ later =>
    pool.Shows holds now (fun _ _ => none) (fun _ => False) later
  /-- A listing has each key once that has a value. -/
  list : ∀ now state, Ensures (pool.list now) state fun items later =>
    (items.map Prod.fst).Nodup ∧
      (∀ key, key ∈ items.map Prod.fst ↔ (pool.find state now key).isSome = true) ∧
      pool.Shows holds now (pool.find state) (holds state) later
  /-- Work that was put off changes no values. Once it is done the values are counted that can be
  found, and at most those besides that are still held. -/
  tend : ∀ now state, Ensures (pool.tend now) state fun _ later =>
    pool.Shows holds now (pool.find state) (holds state) later ∧
      (∀ keys : List String, keys.Nodup →
        (∀ key ∈ keys, (pool.find state now key).isSome = true) → keys.length ≤ pool.count later) ∧
      ∀ keys : List String, (∀ key, holds later key → key ∈ keys) → pool.count later ≤ keys.length

/-- What is shown may be said in another way. -/
theorem Shows.congr {pool : Pool σ} {holds : σ → String → Prop} {now : Duration}
    {shown other : Duration → String → Option Bytes} {held listed : String → Prop} {state : σ}
    (h : pool.Shows holds now shown held state)
    (hshown : ∀ moment key, now ≤ moment → shown moment key = other moment key)
    (hheld : ∀ key, held key → listed key) : pool.Shows holds now other listed state where
  found moment key hmoment := (h.found moment key hmoment).trans (hshown moment key hmoment)
  held key hheld' := hheld key (h.held key hheld')

end Pool

namespace Wheel

/-- The pool still has an entry for a key. -/
def holds (wheel : Wheel) (key : String) : Prop := wheel.entries.contains key = true

/-- A key is held if it has an entry. -/
theorem holds_iff {wheel : Wheel} {key : String} :
    wheel.holds key ↔ wheel.entries[key]? ≠ none := by
  rw [holds, Std.ExtTreeMap.contains_eq_isSome_getElem?, Option.isSome_iff_ne_none]

/-- A look-up finds the value of an entry that has not expired. -/
theorem find_eq (wheel : Wheel) (moment : Duration) (key : String) :
    pool.find wheel moment key =
      wheel.entries[key]?.bind fun entry => entry.toCacheEntry.at? moment := by
  show ((wheel.entries[key]?.filter _).map _).map _ = _
  cases wheel.entries[key]? with
  | none => rfl
  | some entry =>
    rw [Option.filter_some, Option.bind_some, CacheEntry.at?]
    split <;> rfl

/-- A pool that has got rid only of what has expired shows the same from then on. -/
theorem shows_of_kept {wheel later : Wheel} {now : Duration}
    (hentries : later.entries = wheel.entries ∨
      later.entries = wheel.entries.filter fun _ entry => entry.isLive now) :
    pool.Shows holds now (pool.find wheel) wheel.holds later := by
  rcases hentries with hsame | hfiltered
  · refine ⟨fun moment key _ => ?_, fun key hheld => ?_⟩
    · rw [find_eq, find_eq, hsame]
    · rwa [holds, hsame] at hheld
  · refine ⟨fun moment key hmoment => ?_, fun key hheld => ?_⟩
    · rw [find_eq, find_eq, hfiltered, Table.get?_filter]
      cases wheel.entries[key]? with
      | none => rfl
      | some entry =>
        rw [Option.filter_some]
        split
        · rfl
        · next hgone =>
          have hgone' : ¬entry.toCacheEntry.isLive moment = true := fun hlive =>
            hgone (CacheEntry.isLive_of_le hmoment hlive)
          rw [Option.bind_none, Option.bind_some, CacheEntry.at?, if_neg hgone']
    · rw [holds_iff, hfiltered, Table.get?_filter] at hheld
      exact holds_iff.mpr fun hnone => hheld (by rw [hnone, Option.filter_none])

theorem swept_entries (wheel : Wheel) (now : Duration) :
    (wheel.swept now).entries = wheel.entries ∨
      (wheel.swept now).entries = wheel.entries.filter fun _ entry => entry.isLive now := by
  unfold swept
  dsimp only
  split
  · exact .inl rfl
  · split
    · exact .inr rfl
    · exact .inl rfl

/-- Looking after itself, a pool loses nothing that could be found from then on. -/
theorem swept_shows (wheel : Wheel) (now : Duration) :
    pool.Shows holds now (pool.find wheel) wheel.holds (wheel.swept now) :=
  shows_of_kept (wheel.swept_entries now)

theorem used_shows (wheel : Wheel) (now : Duration) :
    pool.Shows holds now (pool.find wheel) wheel.holds (wheel.used now) := by
  unfold used
  split
  · exact wheel.swept_shows now
  · exact shows_of_kept (.inl rfl)

/-- A pool without entries shows nothing and holds nothing. -/
theorem shows_of_empty {wheel : Wheel} (hempty : wheel.entries = ∅) (now : Duration) :
    pool.Shows holds now (fun _ _ => none) (fun _ => False) wheel where
  found moment key _ := by simp [find_eq, hempty]
  held key hheld := by simp [holds, hempty] at hheld

/-- How long a value is to live is up to the policy. -/
theorem lifetimeOf_of_policy (wheel : Wheel) (policy : ExpiryPolicy) (now : Duration)
    (key : String) (written : TimedValue) :
    wheel.lifetimeOf policy now key written = policy.afterCreate written ∨
      ∃ rest, wheel.lifetimeOf policy now key written = policy.afterUpdate written rest := by
  unfold lifetimeOf
  split
  · exact .inl rfl
  · exact .inr ⟨_, rfl⟩

/-- A write shows the value under its key, and changes no other one. -/
theorem insert_shows (wheel : Wheel) (policy : ExpiryPolicy) (now : Duration) (key : String)
    (written : TimedValue) :
    pool.Shows holds now
      (fun moment other => if other = key then
        CacheEntry.at? ⟨written.value,
          (wheel.lifetimeOf policy now key written).map (now + ·)⟩ moment
        else pool.find wheel moment other)
      (fun other => other = key ∨ wheel.holds other) (wheel.insert policy now key written) where
  found moment other _ := by
    rw [find_eq, find_eq, insert, Table.get?_insert]
    by_cases hsame : other = key
    · rw [if_pos hsame, if_pos hsame.symm, Option.bind_some]
    · rw [if_neg hsame, if_neg (Ne.symm hsame)]
  held other hheld := by
    rw [holds_iff, insert, Table.get?_insert] at hheld
    by_cases hsame : other = key
    · exact .inl hsame
    · rw [if_neg (Ne.symm hsame)] at hheld
      exact .inr (holds_iff.mpr hheld)

/-- A removal takes the value of its key away, and changes no other one. -/
theorem erase_shows (wheel : Wheel) (now : Duration) (key : String) :
    pool.Shows holds now
      (fun moment other => if other = key then none else pool.find wheel moment other)
      (fun other => other ≠ key ∧ wheel.holds other) (wheel.erase key) where
  found moment other _ := by
    rw [find_eq, find_eq, erase, Table.get?_erase]
    by_cases hsame : other = key
    · rw [if_pos hsame, if_pos hsame.symm, Option.bind_none]
    · rw [if_neg hsame, if_neg (Ne.symm hsame)]
  held other hheld := by
    rw [holds_iff, erase, Table.get?_erase] at hheld
    by_cases hsame : other = key
    · rw [if_pos hsame.symm] at hheld
      exact absurd rfl hheld
    · rw [if_neg (Ne.symm hsame)] at hheld
      exact ⟨hsame, holds_iff.mpr hheld⟩

/-- A listing has the keys of the entries that have not expired. -/
theorem map_fst_list (wheel : Wheel) (now : Duration) :
    (wheel.list now).map Prod.fst =
      (wheel.entries.filter fun _ entry => entry.isLive now).keys := by
  rw [list, List.map_map, ← Std.ExtTreeMap.map_fst_toList_eq_keys]
  rfl

theorem mem_list_iff (wheel : Wheel) (now : Duration) (key : String) :
    key ∈ (wheel.list now).map Prod.fst ↔ (pool.find wheel now key).isSome = true := by
  rw [map_fst_list, Std.ExtTreeMap.mem_keys, Std.ExtTreeMap.mem_iff_isSome_getElem?, find_eq,
    Table.get?_filter]
  cases wheel.entries[key]? with
  | none => rfl
  | some entry =>
    rw [Option.filter_some, Option.bind_some, CacheEntry.at?]
    split <;> rfl

/-- A pool has no fewer entries than keys that have a value. -/
theorem length_le_size (wheel : Wheel) {now : Duration} {keys : List String}
    (hnodup : keys.Nodup) (hfound : ∀ key ∈ keys, (pool.find wheel now key).isSome = true) :
    keys.length ≤ wheel.entries.size := by
  rw [← Std.ExtTreeMap.length_keys]
  refine (hnodup.subperm fun key hmem => ?_).length_le
  have hkey := hfound key hmem
  rw [find_eq] at hkey
  rw [Std.ExtTreeMap.mem_keys, Std.ExtTreeMap.mem_iff_isSome_getElem?]
  cases hentry : wheel.entries[key]? with
  | none => rw [hentry] at hkey; cases hkey
  | some entry => rfl

/-- A pool has no more entries than keys that it holds. -/
theorem size_le_length (wheel : Wheel) {keys : List String}
    (hheld : ∀ key, wheel.holds key → key ∈ keys) : wheel.entries.size ≤ keys.length := by
  rw [← Std.ExtTreeMap.length_keys]
  refine (Std.ExtTreeMap.nodup_keys.subperm fun key hmem => hheld key ?_).length_le
  rwa [Std.ExtTreeMap.mem_keys] at hmem

/-- The pool does what is documented. -/
theorem pool_documented : pool.Documented holds where
  build now := shows_of_empty rfl now
  get now key wheel := wheel.used_shows now
  insert policy now key written wheel := by
    have hused := wheel.used_shows now
    have hinsert := (wheel.used now).insert_shows policy now key written
    refine ⟨_, (wheel.used now).lifetimeOf_of_policy policy now key written,
      hinsert.congr (fun moment other hmoment => ?_) fun other => Or.imp_right (hused.held other)⟩
    rw [hused.found moment other hmoment]
  remove now key wheel := by
    have hused := wheel.used_shows now
    refine ((wheel.used now).erase_shows now key).congr (fun moment other hmoment => ?_)
      fun other => And.imp_right (hused.held other)
    rw [hused.found moment other hmoment]
  dropAll now wheel := shows_of_empty rfl now
  list now wheel := by
    have hnodup : ((wheel.list now).map Prod.fst).Nodup := by
      rw [map_fst_list]
      exact Std.ExtTreeMap.nodup_keys
    exact ⟨hnodup, wheel.mem_list_iff now, shows_of_kept (.inl rfl)⟩
  tend now wheel := by
    have hswept := wheel.swept_shows now
    refine ⟨hswept, fun keys hnodup hfound => ?_, fun keys hheld => ?_⟩
    · exact (wheel.swept now).length_le_size hnodup fun key hmem =>
        (hswept.found now key (Nat.le_refl now)).symm ▸ hfound key hmem
    · exact (wheel.swept now).size_le_length hheld

end Wheel

end PresenceTracker
