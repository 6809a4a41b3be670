import Mathlib.Data.List.Basic
import Mathlib.Logic.Function.Basic
import PresenceTracker.Proofs.Cache.Shelf
import PresenceTracker.Proofs.Redis.Namespace

/-!
# Caches on one server remember what they are to remember

Caches with different proper names share the keys of a server without getting into each other's
way: a key that begins like those of a cache belongs to that cache alone. So the server shows of
each cache what is live on its shelf, whatever it holds besides, and the commands that a cache
sends for a request change its own shelf and no other one.
-/

namespace PresenceTracker

open Redis CacheName

/-- A lifetime of whole milliseconds, as many as a server takes. -/
def Duration.IsWhole (lifetime : Duration) : Prop :=
  ∃ count, count ≤ Server.maxLifetime ∧ lifetime = Duration.ofMillis count

/-- A request that both backends serve alike: it is not the check of the backend, and a lifetime
that comes with it is one of whole milliseconds. -/
def CacheRequest.IsServed : CacheRequest → Prop
  | .set _ _ lifetime => Duration.IsWhole lifetime
  | .health => False
  | _ => True

/-- Caches that share a server. -/
structure RedisCache.Neighbours {ι : Type} (cache : ι → RedisCache) : Prop where
  /-- Their names are different. -/
  distinct : ∀ owner other, (cache owner).name = (cache other).name → owner = other
  /-- Their names are proper. -/
  proper : ∀ owner, Proper (cache owner).name
  /-- Their default lifetimes are whole. -/
  whole : ∀ owner, Duration.IsWhole (cache owner).defaultTtl

/-- A server shows of each cache what is live on its shelf, from a moment on. -/
structure Redis.Server.Shows {σ ι : Type} (server : Server σ) (cache : ι → RedisCache)
    (shelves : ι → Shelf) (now : Duration) (state : σ) : Prop where
  /-- The value of a key of a cache is that of the live entry. -/
  found : ∀ owner key moment, now ≤ moment → server.find state moment ((cache owner).fullKey key) =
    ((shelves owner).live moment)[key]?.map CacheEntry.value
  /-- What begins like the keys of a cache is a key of the cache. -/
  owned : ∀ owner bytes moment, now ≤ moment → (server.find state moment bytes).isSome = true →
    (cache owner).fullKey "" <+: bytes → ∃ key, bytes = (cache owner).fullKey key

namespace RedisCache

variable {ι : Type} {cache : ι → RedisCache}

theorem fullKey_injective (cache : RedisCache) {key other : String}
    (h : cache.fullKey key = cache.fullKey other) : key = other := namespaced_injective h

/-- What a key begins with is that of its cache alone. -/
theorem Neighbours.eq_of_front (h : Neighbours cache) {owner other : ι} {key : String}
    (hfront : (cache other).fullKey "" <+: (cache owner).fullKey key) : other = owner :=
  h.distinct other owner ((h.proper other).eq_of_front (h.proper owner) hfront)

theorem prefix_fullKey (cache : RedisCache) (key : String) :
    cache.fullKey "" <+: cache.fullKey key := prefix_namespaced cache.name key

end RedisCache

namespace Redis.Server.Shows

variable {σ ι : Type} {server : Server σ} {cache : ι → RedisCache} {shelves : ι → Shelf}
  {now : Duration} {state later : σ}

/-- A server without keys that begin like those of a cache shows empty shelves. -/
theorem start (h : ∀ owner bytes moment, now ≤ moment → (cache owner).fullKey "" <+: bytes →
      server.find state moment bytes = none) :
    server.Shows cache (fun _ => ∅) now state where
  found owner key moment hmoment := by
    rw [h owner _ moment hmoment ((cache owner).prefix_fullKey key), Shelf.get?_live]
    simp
  owned owner bytes moment hmoment hsome hfront := by
    rw [h owner bytes moment hmoment hfront] at hsome
    cases hsome

theorem passes (h : server.Shows cache shelves now state) {moment : Duration}
    (hmoment : now ≤ moment) : server.Shows cache shelves moment state where
  found owner key last hlast := h.found owner key last (Nat.le_trans hmoment hlast)
  owned owner bytes last hlast := h.owned owner bytes last (Nat.le_trans hmoment hlast)

theorem keeps (h : server.Shows cache shelves now state) (hkeeps : server.Keeps now state later) :
    server.Shows cache shelves now later where
  found owner key moment hmoment :=
    (hkeeps moment _ hmoment).trans (h.found owner key moment hmoment)
  owned owner bytes moment hmoment hsome := by
    rw [hkeeps moment bytes hmoment] at hsome
    exact h.owned owner bytes moment hmoment hsome

variable [DecidableEq ι]

/-- The server shows another shelf of one cache if all keys of that cache have the values of that
shelf and all other keys have the values they had. -/
theorem replace (h : server.Shows cache shelves now state) (hcache : RedisCache.Neighbours cache)
    {owner : ι} {shelf : Shelf}
    (hown : ∀ key moment, now ≤ moment → server.find later moment ((cache owner).fullKey key) =
      (shelf.live moment)[key]?.map CacheEntry.value)
    (hothers : ∀ bytes moment, now ≤ moment → (∀ key, bytes ≠ (cache owner).fullKey key) →
      server.find later moment bytes = server.find state moment bytes) :
    server.Shows cache (Function.update shelves owner shelf) now later where
  found other key moment hmoment := by
    by_cases hsame : other = owner
    · subst hsame
      rw [Function.update_self]
      exact hown key moment hmoment
    · have hforeign : ∀ own, (cache other).fullKey key ≠ (cache owner).fullKey own := by
        intro own heq
        exact hsame (hcache.eq_of_front (heq ▸ (cache other).prefix_fullKey key))
      rw [Function.update_of_ne hsame, hothers _ moment hmoment hforeign]
      exact h.found other key moment hmoment
  owned other bytes moment hmoment hsome hfront := by
    by_cases hkey : ∃ key, bytes = (cache owner).fullKey key
    · obtain ⟨key, rfl⟩ := hkey
      exact ⟨key, by rw [hcache.eq_of_front hfront]⟩
    · rw [hothers bytes moment hmoment (not_exists.mp hkey)] at hsome
      exact h.owned other bytes moment hmoment hsome hfront

/-- A write to one key of a cache goes on the shelf of that cache. -/
theorem insert (h : server.Shows cache shelves now state) (hcache : RedisCache.Neighbours cache)
    {owner : ι} {key : String} {entry : CacheEntry}
    (hputs : server.Puts now state later ((cache owner).fullKey key) entry) :
    server.Shows cache (Function.update shelves owner ((shelves owner).insert key entry)) now
      later := by
  refine h.replace hcache (fun other moment hmoment => ?_) fun bytes moment hmoment hforeign => ?_
  · rw [hputs moment _ hmoment, Shelf.get?_live, Table.get?_insert]
    by_cases hsame : key = other
    · subst hsame
      rw [if_pos rfl, if_pos rfl, Option.filter_some]
      split <;> rfl
    · have hother : (cache owner).fullKey other ≠ (cache owner).fullKey key :=
        fun heq => hsame ((cache owner).fullKey_injective heq).symm
      rw [if_neg hother, if_neg hsame, h.found owner other moment hmoment, Shelf.get?_live]
  · rw [hputs moment bytes hmoment, if_neg (hforeign key)]

/-- Taking keys of a cache away leads to a shelf on which they are not live and all others are
as before. -/
theorem drop (h : server.Shows cache shelves now state) (hcache : RedisCache.Neighbours cache)
    {owner : ι} {keys : List String} {shelf : Shelf}
    (hshelf : ∀ key moment, now ≤ moment → (shelf.live moment)[key]? =
      if key ∈ keys then none else ((shelves owner).live moment)[key]?)
    (hdrops : server.Drops now state later (keys.map (cache owner).fullKey)) :
    server.Shows cache (Function.update shelves owner shelf) now later := by
  refine h.replace hcache (fun key moment hmoment => ?_) fun bytes moment hmoment hforeign => ?_
  · have hmem : (cache owner).fullKey key ∈ keys.map (cache owner).fullKey ↔ key ∈ keys :=
      List.mem_map_of_injective fun _ _ => (cache owner).fullKey_injective
    rw [hdrops moment _ hmoment, hshelf key moment hmoment]
    by_cases hgone : key ∈ keys
    · rw [if_pos hgone, if_pos (hmem.mpr hgone)]
      rfl
    · rw [if_neg hgone, if_neg (mt hmem.mp hgone), h.found owner key moment hmoment]
  · have hout : bytes ∉ keys.map (cache owner).fullKey := by
      intro hmem
      obtain ⟨key, -, rfl⟩ := List.mem_map.mp hmem
      exact hforeign key rfl
    rw [hdrops moment bytes hmoment, if_neg hout]

/-- Taking a key of a cache away takes it off the shelf of that cache. -/
theorem erase (h : server.Shows cache shelves now state) (hcache : RedisCache.Neighbours cache)
    {owner : ι} {key : String}
    (hdrops : server.Drops now state later [(cache owner).fullKey key]) :
    server.Shows cache (Function.update shelves owner ((shelves owner).erase key)) now later := by
  refine h.drop hcache (fun other moment _ => ?_) (show server.Drops now state later
    ([key].map (cache owner).fullKey) from hdrops)
  rw [Shelf.get?_live, Table.get?_erase]
  by_cases hsame : key = other
  · subst hsame
    rw [if_pos rfl, if_pos (List.mem_singleton_self key)]
    rfl
  · rw [if_neg hsame, if_neg fun hmem => hsame (List.mem_singleton.mp hmem).symm, Shelf.get?_live]

/-- Taking all keys of a cache away that have values empties the shelf of that cache. -/
theorem clear (h : server.Shows cache shelves now state) (hcache : RedisCache.Neighbours cache)
    {owner : ι} {keys : List String} (hkeys : keys.Perm ((shelves owner).live now).keys)
    (hdrops : server.Drops now state later (keys.map (cache owner).fullKey)) :
    server.Shows cache (Function.update shelves owner ∅) now later := by
  refine h.drop hcache (fun key moment hmoment => ?_) hdrops
  have hempty : (Shelf.live ∅ moment)[key]? = none := by simp [Shelf.get?_live]
  rw [hempty]
  split
  · rfl
  · next hout =>
    -- What is not live now is not live later.
    cases hlive : ((shelves owner).live moment)[key]? with
    | none => rfl
    | some entry =>
      obtain ⟨hshelf, hentry⟩ := Shelf.get?_live_eq_some.mp hlive
      have hnow : ((shelves owner).live now)[key]? = some entry :=
        Shelf.get?_live_eq_some.mpr ⟨hshelf, entry.isLive_of_le hmoment hentry⟩
      exact absurd (hkeys.mem_iff.mpr (Shelf.mem_keys_live.mpr (by rw [hnow]; rfl))) hout

end Redis.Server.Shows

namespace RedisCache

variable {σ ι : Type} {server : Server σ} {cache : ι → RedisCache} {shelves : ι → Shelf}
  {now : Duration} {state : σ}

/-- A call gives what is read from its reply. -/
theorem call_ensures {α : Type} {send : Command → StateM σ Reply} (cache : RedisCache)
    {command : Command} (read : Reply → Except String α) {claim : Reply → σ → Prop}
    (h : Ensures (send command) state claim) :
    Ensures (call send cache command read) state fun result later =>
      ∃ reply, claim reply later ∧ result = cache.resultOf command read reply :=
  h.bind fun reply _ hreply => ensures_pure ⟨reply, hreply, rfl⟩

/-- A look-up gives the value of the key. -/
theorem get_ensures (hserver : server.Documented) (cache : RedisCache) (key : String) :
    Ensures (get (server.respond now) cache key) state fun result later =>
      result = .ok (server.find state now (cache.fullKey key)) ∧ server.Keeps now state later := by
  have hget := hserver.get now (cache.fullKey key) state
  refine (call_ensures cache Reply.asBytes hget).mono fun result later hresult => ?_
  obtain ⟨reply, ⟨rfl, hkeeps⟩, rfl⟩ := hresult
  refine ⟨?_, hkeeps⟩
  cases server.find state now (cache.fullKey key) <;> rfl

/-- A write gives the key its value until the lifetime is over. -/
theorem set_ensures (hserver : server.Documented) (cache : RedisCache) (key : String)
    (value : Bytes) {lifetime : Duration} (hwhole : lifetime.IsWhole) :
    Ensures (set (server.respond now) cache key value lifetime) state fun result later =>
      result = .ok () ∧
        server.Puts now state later (cache.fullKey key) (.written value now lifetime) := by
  obtain ⟨count, hcount, rfl⟩ := hwhole
  unfold set CacheEntry.written
  by_cases hzero : Duration.ofMillis count = 0
  · have hset := hserver.set now (cache.fullKey key) value state
    rw [if_pos hzero, if_pos hzero]
    refine (call_ensures cache Reply.asDone hset).mono fun result later hresult => ?_
    obtain ⟨reply, ⟨rfl, hputs⟩, rfl⟩ := hresult
    exact ⟨rfl, hputs⟩
  · have hpositive : 0 < count := Nat.pos_of_ne_zero fun heq => hzero (by rw [heq]; rfl)
    have hmillis : lifetimeMillis (Duration.ofMillis count) = count := by
      rw [lifetimeMillis, Duration.wholeMillis_ofMillis]
      exact Nat.min_eq_left (Nat.le_trans hcount (by decide))
    have hset := hserver.setFor now (cache.fullKey key) value count state hpositive hcount
    rw [if_neg hzero, if_neg hzero, hmillis]
    refine (call_ensures cache Reply.asDone hset).mono fun result later hresult => ?_
    obtain ⟨reply, ⟨rfl, hputs⟩, rfl⟩ := hresult
    exact ⟨rfl, hputs⟩

/-- Keys are deleted, if there are any. -/
theorem delete_ensures (hserver : server.Documented) (cache : RedisCache) {keys : List Bytes}
    (hkeys : keys ≠ []) :
    Ensures (call (server.respond now) cache ⟨"DEL", keys⟩ Reply.asDone) state
      fun result later => result = .ok () ∧ server.Drops now state later keys := by
  have hdelete := hserver.delete now keys state hkeys
  refine (call_ensures cache Reply.asDone hdelete).mono fun result later hresult => ?_
  obtain ⟨reply, ⟨⟨count, rfl⟩, hdrops⟩, rfl⟩ := hresult
  exact ⟨rfl, hdrops⟩

/-- Keys of a cache are read as the texts that they are. -/
theorem asTexts_fullKeys (cache : RedisCache) (keys : List String) :
    Reply.asTexts (.list (keys.map cache.fullKey)) =
      .ok (keys.map (namespaced cache.name)) := by
  show (keys.map cache.fullKey).mapM Reply.textOf = _
  induction keys with
  | nil => rfl
  | cons key rest ih =>
    have hkey : Reply.textOf (cache.fullKey key) = .ok (namespaced cache.name key) := by
      rw [Reply.textOf, fullKey, Bytes.text?_ofText]
    rw [List.map_cons, List.mapM_cons, hkey, ih]
    rfl

/-- Byte strings that are all keys of a cache are the full forms of some keys. -/
theorem exists_map_fullKey (cache : RedisCache) {items : List Bytes}
    (h : ∀ item ∈ items, ∃ key, item = cache.fullKey key) :
    ∃ keys : List String, items = keys.map cache.fullKey := by
  induction items with
  | nil => exact ⟨[], rfl⟩
  | cons item rest ih =>
    obtain ⟨key, rfl⟩ := h item List.mem_cons_self
    obtain ⟨keys, rfl⟩ := ih fun other hother => h other (List.mem_cons_of_mem _ hother)
    exact ⟨key :: keys, rfl⟩

/-- The keys listed are those that are live on the shelf. -/
theorem fullKeys_ensures (hserver : server.Documented) (hcache : Neighbours cache)
    (h : server.Shows cache shelves now state) (owner : ι) :
    Ensures (fullKeys (server.respond now) (cache owner)) state fun result later =>
      ∃ keys : List String, result = .ok (keys.map (namespaced (cache owner).name)) ∧
        keys.Perm ((shelves owner).live now).keys ∧ server.Keeps now state later := by
  have hproper := hcache.proper owner
  have hlist := hserver.keys now (Bytes.ofText (pattern (cache owner).name)) state hproper.isPlain
  refine (call_ensures (cache owner) Reply.asTexts hlist).mono fun result later hresult => ?_
  obtain ⟨reply, ⟨⟨items, rfl, hnodup, hitems⟩, hkeeps⟩, rfl⟩ := hresult
  obtain ⟨keys, rfl⟩ := (cache owner).exists_map_fullKey fun item hitem => by
    obtain ⟨hsome, hfits⟩ := (hitems item).mp hitem
    exact h.owned owner item now (Nat.le_refl now) hsome ((hproper.fits_iff item).mp hfits)
  refine ⟨keys, ?_, ?_, hkeeps⟩
  · show (Reply.asTexts (.list (keys.map (cache owner).fullKey))).mapError refused = _
    rw [asTexts_fullKeys]
    rfl
  · have hmem : ∀ key, key ∈ keys ↔ key ∈ ((shelves owner).live now).keys := by
      intro key
      have hfits := (hproper.fits_iff ((cache owner).fullKey key)).mpr
        ((cache owner).prefix_fullKey key)
      have hlisted := hitems ((cache owner).fullKey key)
      rw [List.mem_map_of_injective fun _ _ => (cache owner).fullKey_injective,
        h.found owner key now (Nat.le_refl now), hfits, Option.isSome_map] at hlisted
      rw [hlisted, Shelf.mem_keys_live]
      exact and_iff_left rfl
    have hkeys : keys.Nodup :=
      List.Pairwise.of_map (cache owner).fullKey (fun _ _ hne heq => hne (congrArg _ heq)) hnodup
    exact (List.perm_ext_iff_of_nodup hkeys Std.ExtTreeMap.nodup_keys).mpr hmem

/-- A listing gives the keys that are live on the shelf. -/
theorem keys_ensures (hserver : server.Documented) (hcache : Neighbours cache)
    (h : server.Shows cache shelves now state) (owner : ι) :
    Ensures (keys (server.respond now) (cache owner)) state fun result later =>
      ∃ found : List String, result = .ok found ∧
        found.Perm ((shelves owner).live now).keys ∧ server.Keeps now state later := by
  refine (fullKeys_ensures hserver hcache h owner).bind fun result later hresult => ?_
  obtain ⟨found, rfl, hfound, hkeeps⟩ := hresult
  have hbehind : behind? (namespaced (cache owner).name "") ∘ namespaced (cache owner).name =
      some := funext fun key => behind?_namespaced (cache owner).name key
  have hkeys : (found.map (namespaced (cache owner).name)).filterMap
      (behind? (namespaced (cache owner).name "")) = found := by
    rw [List.filterMap_map, hbehind, List.filterMap_some]
  exact ensures_pure ⟨found, congrArg Except.ok hkeys, hfound, hkeeps⟩

/-- A count gives the number of the entries that are live on the shelf. -/
theorem size_ensures (hserver : server.Documented) (hcache : Neighbours cache)
    (h : server.Shows cache shelves now state) (owner : ι) :
    Ensures (size (server.respond now) (cache owner)) state fun result later =>
      result = .ok ((shelves owner).live now).size ∧ server.Keeps now state later := by
  refine (fullKeys_ensures hserver hcache h owner).bind fun result later hresult => ?_
  obtain ⟨found, rfl, hfound, hkeeps⟩ := hresult
  refine ensures_pure ⟨congrArg Except.ok ?_, hkeeps⟩
  rw [List.length_map, hfound.length_eq, Std.ExtTreeMap.length_keys]

variable [DecidableEq ι]

/-- A purge empties the shelf of its cache and no other one. -/
theorem purge_ensures (hserver : server.Documented) (hcache : Neighbours cache)
    (h : server.Shows cache shelves now state) (owner : ι) :
    Ensures (purge (server.respond now) (cache owner)) state fun result later =>
      result = .ok () ∧ server.Shows cache (Function.update shelves owner ∅) now later := by
  refine (fullKeys_ensures hserver hcache h owner).bind fun result listed hresult => ?_
  obtain ⟨keys, rfl, hkeys, hkeeps⟩ := hresult
  have hlisted : server.Shows cache shelves now listed := h.keeps hkeeps
  cases keys with
  | nil => exact ensures_pure ⟨rfl, hlisted.clear hcache hkeys fun moment other _ => rfl⟩
  | cons key rest =>
    have hnames : ((key :: rest).map (namespaced (cache owner).name)).map Bytes.ofText =
        (key :: rest).map (cache owner).fullKey := List.map_map
    have hdelete : Ensures (call (server.respond now) (cache owner)
        ⟨"DEL", ((key :: rest).map (namespaced (cache owner).name)).map Bytes.ofText⟩
        Reply.asDone) listed _ := delete_ensures hserver (cache owner) (List.cons_ne_nil _ _)
    refine hdelete.mono fun result later hresult => ?_
    exact ⟨hresult.1, hlisted.clear hcache hkeys (hnames ▸ hresult.2)⟩

/-- A cache answers every request that is served, rightly by its shelf, and remembers what it is
to remember; the other caches remember what they did. -/
theorem answer_ensures (hserver : server.Documented) (hcache : Neighbours cache)
    (h : server.Shows cache shelves now state) (owner : ι) {request : CacheRequest}
    (hrequest : request.IsServed) :
    Ensures ((cache owner).answer (server.respond now) request) state fun result later =>
      ∃ response, result = .ok response ∧ response.Alike ((shelves owner).response now request) ∧
        server.Shows cache (Function.update shelves owner
          ((shelves owner).after (cache owner).defaultTtl now request)) now later := by
  have hsame : Function.update shelves owner (shelves owner) = shelves :=
    Function.update_eq_self _ _
  cases request with
  | get key =>
    refine (get_ensures hserver (cache owner) key).bind fun result later hresult => ?_
    obtain ⟨rfl, hkeeps⟩ := hresult
    have hfound := h.found owner key now (Nat.le_refl now)
    exact ensures_pure ⟨_, rfl, congrArg CacheResponse.value hfound, hsame.symm ▸ h.keeps hkeeps⟩
  | set key value lifetime =>
    have hwhole : lifetime.IsWhole := hrequest
    refine (set_ensures hserver (cache owner) key value hwhole).bind fun result later hresult => ?_
    obtain ⟨rfl, hputs⟩ := hresult
    exact ensures_pure ⟨_, rfl, .refl .done, h.insert hcache hputs⟩
  | setDefault key value =>
    have hwhole := hcache.whole owner
    refine (set_ensures hserver (cache owner) key value hwhole).bind fun result later hresult => ?_
    obtain ⟨rfl, hputs⟩ := hresult
    exact ensures_pure ⟨_, rfl, .refl .done, h.insert hcache hputs⟩
  | remove key =>
    have hkeys : [(cache owner).fullKey key] ≠ [] := List.cons_ne_nil _ _
    refine (delete_ensures hserver (cache owner) hkeys).bind fun result later hresult => ?_
    obtain ⟨rfl, hdrops⟩ := hresult
    exact ensures_pure ⟨_, rfl, .refl .done, h.erase hcache hdrops⟩
  | purge =>
    refine (purge_ensures hserver hcache h owner).bind fun result later hresult => ?_
    obtain ⟨rfl, hshows⟩ := hresult
    exact ensures_pure ⟨_, rfl, .refl .done, hshows⟩
  | keys =>
    refine (keys_ensures hserver hcache h owner).bind fun result later hresult => ?_
    obtain ⟨found, rfl, hfound, hkeeps⟩ := hresult
    exact ensures_pure ⟨_, rfl, hfound, hsame.symm ▸ h.keeps hkeeps⟩
  | size =>
    refine (size_ensures hserver hcache h owner).bind fun result later hresult => ?_
    obtain ⟨rfl, hkeeps⟩ := hresult
    exact ensures_pure ⟨_, rfl, rfl, hsame.symm ▸ h.keeps hkeeps⟩
  | health => exact hrequest.elim

end RedisCache

end PresenceTracker
