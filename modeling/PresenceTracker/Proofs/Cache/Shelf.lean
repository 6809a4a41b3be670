import PresenceTracker.Cache.Request
import PresenceTracker.Table

/-!
# What a cache is to remember

Of every write a cache is to remember the value and the moment from which on it is gone, until
the key is written again, removed or purged. That is a map whatever backend the cache has, and
the answers to all requests can be read off it: the value of a key, the keys and their number
are those of the entries that are live at the moment of the request.
-/

namespace PresenceTracker

/-- What a cache is to remember: the last write of each key. -/
abbrev Shelf := Table CacheEntry

namespace Shelf

/-- The entries that are live at a moment. -/
def live (shelf : Shelf) (now : Duration) : Shelf := shelf.filter fun _ entry => entry.isLive now

/-- The shelf after a request at a moment, for a cache with a default lifetime. -/
def after (defaultTtl : Duration) (shelf : Shelf) (now : Duration) : CacheRequest → Shelf
  | .set key value lifetime => shelf.insert key (.written value now lifetime)
  | .setDefault key value => shelf.insert key (.written value now defaultTtl)
  | .remove key => shelf.erase key
  | .purge => ∅
  | _ => shelf

/-- What is to be told about the shelf at a moment. -/
def response (shelf : Shelf) (now : Duration) : CacheRequest → CacheResponse
  | .get key => .value ((shelf.live now)[key]?.map CacheEntry.value)
  | .keys => .keys (shelf.live now).keys
  | .size => .size (shelf.live now).size
  | .health => .health true
  | _ => .done

theorem get?_live (shelf : Shelf) (now : Duration) (key : String) :
    (shelf.live now)[key]? = shelf[key]?.filter fun entry => entry.isLive now :=
  Table.get?_filter shelf _ key

/-- A key is live if its entry is. -/
theorem get?_live_eq_some {shelf : Shelf} {now : Duration} {key : String} {entry : CacheEntry} :
    (shelf.live now)[key]? = some entry ↔ shelf[key]? = some entry ∧ entry.isLive now = true := by
  rw [get?_live, Option.filter_eq_some_iff]

/-- An entry is live as long as it has a value. -/
theorem map_value_live (shelf : Shelf) (now : Duration) (key : String) :
    (shelf.live now)[key]?.map CacheEntry.value = shelf[key]?.bind fun entry => entry.at? now := by
  rw [get?_live]
  cases shelf[key]? with
  | none => rfl
  | some entry =>
    rw [Option.filter_some, Option.bind_some, CacheEntry.at?]
    split <;> rfl

/-- Where no entry has expired all are live. -/
theorem live_eq_self {shelf : Shelf} {now : Duration}
    (h : ∀ (key : String) (entry : CacheEntry), shelf[key]? = some entry →
      entry.isLive now = true) : shelf.live now = shelf := by
  refine Std.ExtTreeMap.ext_getElem? fun key => ?_
  rw [get?_live]
  cases hentry : shelf[key]? with
  | none => rfl
  | some entry => rw [Option.filter_some, if_pos (h key entry hentry)]

/-- The keys listed are those that have a value. -/
theorem mem_keys_live {shelf : Shelf} {now : Duration} {key : String} :
    key ∈ (shelf.live now).keys ↔ (shelf.live now)[key]?.isSome = true := by
  rw [Std.ExtTreeMap.mem_keys, Std.ExtTreeMap.mem_iff_isSome_getElem?]

end Shelf

namespace CacheResponse

/-- Two responses say the same; keys may be listed in any order. -/
def Alike : CacheResponse → CacheResponse → Prop
  | .keys found, .keys other => found.Perm other
  | response, other => response = other

theorem alike_iff {response other : CacheResponse} :
    response.Alike other ↔ response = other ∨
      ∃ found listed, response = .keys found ∧ other = .keys listed ∧ found.Perm listed := by
  unfold Alike
  split
  · next found listed =>
    refine ⟨fun h => .inr ⟨found, listed, rfl, rfl, h⟩, ?_⟩
    rintro (heq | ⟨_, _, hfound, hlisted, h⟩)
    · exact keys.inj heq ▸ List.Perm.refl _
    · cases hfound
      cases hlisted
      exact h
  · next hother =>
    refine ⟨.inl, ?_⟩
    rintro (heq | ⟨found, listed, rfl, rfl, -⟩)
    · exact heq
    · exact (hother found listed rfl rfl).elim

theorem Alike.refl (response : CacheResponse) : response.Alike response := alike_iff.mpr (.inl rfl)

/-- Responses that say the same as a third one say the same. -/
theorem Alike.of_alike {response other right : CacheResponse} (h : response.Alike right)
    (h' : other.Alike right) : response.Alike other := by
  rcases alike_iff.mp h with rfl | ⟨found, listed, rfl, rfl, hfound⟩
  · rcases alike_iff.mp h' with rfl | ⟨found, listed, rfl, rfl, hfound⟩
    · exact .refl _
    · exact hfound.symm
  · rcases alike_iff.mp h' with rfl | ⟨others, _, rfl, heq, hothers⟩
    · exact hfound
    · cases heq
      exact hfound.trans hothers.symm

end CacheResponse

end PresenceTracker
