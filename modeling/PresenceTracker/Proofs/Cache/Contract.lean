import Mathlib.Control.Monad.Basic
import PresenceTracker.Proofs.Cache.Memory
import PresenceTracker.Proofs.Redis.Shelves
import PresenceTracker.Proofs.Redis.TreeServer

/-!
# One contract for both backends

Whichever calls are made to several caches, and whenever, caches in memory and caches on one
server tell what one map for each cache says, in which the last write of a key counts until it
expires, is removed or is purged. The server and the pool under the caches in memory are parameters
of which only what is documented is known. There is one exception: a pool may count entries that
have expired, so the size of a cache in memory may be too large where another backend's is right.
-/

namespace PresenceTracker

/-- Caches in memory and caches on a server, one of each for every name. -/
structure CacheTwins (ι : Type) where
  /-- The names. -/
  name : ι → String
  /-- How long values live by default. -/
  defaultTtl : ι → Duration
  /-- The topics of the caches in memory. -/
  topic : ι → Topic
  /-- The moments at which the caches in memory are built. -/
  built : ι → Duration
  /-- How long a call to the server may take. -/
  timeout : Duration

/-- A call to one of several caches at a moment. -/
structure TimedCall (ι : Type) where
  /-- The moment. -/
  moment : Duration
  /-- Which cache is called. -/
  owner : ι
  /-- What is asked of it. -/
  request : CacheRequest

namespace CacheTwins

variable {σ τ ι : Type}

/-- A cache in memory before its first call. -/
def memory (twins : CacheTwins ι) (pool : Pool τ) (owner : ι) : MemoryCache τ where
  name := twins.name owner
  topic := twins.topic owner
  defaultTtl := twins.defaultTtl owner
  held := pool.build (twins.built owner)

/-- The cache of the same name on the server. -/
def shared (twins : CacheTwins ι) (owner : ι) : RedisCache :=
  ⟨twins.name owner, twins.defaultTtl owner, twins.timeout⟩

/-- What the caches are to remember, the caches in memory, and the state of the server. -/
structure State (σ τ ι : Type) where
  /-- The shelf of each cache. -/
  shelves : ι → Shelf
  /-- The caches in memory. -/
  caches : ι → MemoryCache τ
  /-- The state of the server. -/
  served : σ

/-- The state before the first call. -/
def opening (twins : CacheTwins ι) (pool : Pool τ) (served : σ) : State σ τ ι :=
  ⟨fun _ => ∅, twins.memory pool, served⟩

/-- What the cache in memory answers. -/
def remembered (pool : Pool τ) (state : State σ τ ι) (call : TimedCall ι) :
    Except Failure CacheResponse :=
  ((state.caches call.owner).answer pool call.moment call.request).1

/-- What the cache on the server answers. -/
def told (twins : CacheTwins ι) (server : Redis.Server σ) (state : State σ τ ι)
    (call : TimedCall ι) : Except Failure CacheResponse :=
  (((twins.shared call.owner).answer (server.respond call.moment) call.request).run
    state.served).1

section Calls

variable [DecidableEq ι]

/-- The state after a call that is made to both caches of a name. -/
def call (twins : CacheTwins ι) (server : Redis.Server σ) (pool : Pool τ) (state : State σ τ ι)
    (call : TimedCall ι) : State σ τ ι where
  shelves := Function.update state.shelves call.owner
    ((state.shelves call.owner).after (twins.defaultTtl call.owner) call.moment call.request)
  caches := Function.update state.caches call.owner
    ((state.caches call.owner).answer pool call.moment call.request).2
  served :=
    (((twins.shared call.owner).answer (server.respond call.moment) call.request).run
      state.served).2

end Calls

/-- Both caches of every name remember at a moment what they are to remember. -/
structure Remembers (twins : CacheTwins ι) (server : Redis.Server σ) (pool : Pool τ)
    (holds : τ → String → Prop) (state : State σ τ ι) (now : Duration) : Prop where
  /-- The server shows the live entries. -/
  shows : server.Shows twins.shared state.shelves now state.served
  /-- The caches in memory hold them, from the moment on at which they are built. -/
  follows : ∀ owner, MemoryCache.Follows pool holds (twins.memory pool owner)
    (state.caches owner) (state.shelves owner) (max now (twins.built owner))

namespace Remembers

variable {twins : CacheTwins ι} {server : Redis.Server σ} {pool : Pool τ}
  {holds : τ → String → Prop} {state : State σ τ ι} {now : Duration}

/-- Before the first call there is nothing to remember. -/
theorem opening (hpool : pool.Documented holds) {served : σ}
    (hclear : ∀ owner bytes moment, (twins.shared owner).fullKey "" <+: bytes →
      server.find served moment bytes = none) :
    twins.Remembers server pool holds (twins.opening pool served) now where
  shows := .start fun owner bytes moment _ => hclear owner bytes moment
  follows owner := .start hpool (Nat.le_max_right now (twins.built owner)) rfl rfl

/-- What is remembered at a moment is remembered later on. -/
theorem passes (h : twins.Remembers server pool holds state now) {later : Duration}
    (hlater : now ≤ later) : twins.Remembers server pool holds state later := by
  refine ⟨h.shows.passes hlater, fun owner => (h.follows owner).passes ?_⟩
  exact Nat.max_le.mpr ⟨Nat.le_trans hlater (Nat.le_max_left later _), Nat.le_max_right later _⟩

variable [DecidableEq ι]

/-- Both caches of a name answer a call rightly, but that the one in memory may count too much,
and all caches remember what they are to remember. -/
theorem call (hserver : server.Documented) (hpool : pool.Documented holds)
    (htwins : RedisCache.Neighbours twins.shared) {call : TimedCall ι}
    (h : twins.Remembers server pool holds state call.moment) (hserved : call.request.IsServed)
    (hbuilt : twins.built call.owner ≤ call.moment) :
    (∃ response, twins.told server state call = .ok response ∧
      response.Alike ((state.shelves call.owner).response call.moment call.request)) ∧
      (∃ response, remembered pool state call = .ok response ∧
        MemoryCache.TellsNearly (state.shelves call.owner) call.moment call.request response) ∧
      twins.Remembers server pool holds (twins.call server pool state call) call.moment := by
  have hrequest : call.request ≠ .health := fun heq => by
    rw [heq] at hserved
    exact hserved
  obtain ⟨other, hother, halike, hshows⟩ :=
    RedisCache.answer_ensures hserver htwins h.shows call.owner hserved
  have hnow : max call.moment (twins.built call.owner) = call.moment := Nat.max_eq_left hbuilt
  have hcalled := h.follows call.owner
  rw [hnow] at hcalled
  obtain ⟨response, hresponse, hnearly, hfollows⟩ := hcalled.answer hpool hrequest
  refine ⟨⟨other, hother, halike⟩, ⟨response, hresponse, hnearly⟩, hshows, fun owner => ?_⟩
  simp only [CacheTwins.call]
  by_cases hsame : owner = call.owner
  · subst hsame
    rw [Function.update_self, Function.update_self, hnow]
    exact hfollows
  · rw [Function.update_of_ne hsame, Function.update_of_ne hsame]
    exact h.follows owner

/-- What is remembered before some calls is so afterwards. -/
theorem run (hserver : server.Documented) (hpool : pool.Documented holds)
    (htwins : RedisCache.Neighbours twins.shared) {calls : List (TimedCall ι)}
    {last : TimedCall ι} (h : twins.Remembers server pool holds state now)
    (htimed : (calls ++ [last]).Pairwise fun call later => call.moment ≤ later.moment)
    (hserved : ∀ call ∈ calls, call.request.IsServed)
    (hbuilt : ∀ call ∈ calls, twins.built call.owner ≤ call.moment)
    (hnow : ∀ call ∈ calls ++ [last], now ≤ call.moment) :
    twins.Remembers server pool holds (calls.foldl (twins.call server pool) state)
      last.moment := by
  induction calls generalizing state now with
  | nil => exact h.passes (hnow last List.mem_cons_self)
  | cons call rest ih =>
    obtain ⟨hlater, hrest⟩ := List.pairwise_cons.mp htimed
    have hpasses := h.passes (hnow call List.mem_cons_self)
    obtain ⟨-, -, hafter⟩ := hpasses.call hserver hpool htwins (hserved call List.mem_cons_self)
      (hbuilt call List.mem_cons_self)
    exact ih hafter hrest (fun other hmem => hserved other (List.mem_cons_of_mem _ hmem))
      (fun other hmem => hbuilt other (List.mem_cons_of_mem _ hmem)) hlater

end Remembers

variable [DecidableEq ι]

/-- Whichever calls were made before, and whenever after the caches that they are for were built:
the next call is answered by both caches of its name. The one on the server tells what its shelf
says, and so does the one in memory, but that its size may be too large by some entries that have
expired. Where there are none, or where it is not the size that is asked for, both answers say the
same. -/
theorem backends_tell_alike {server : Redis.Server σ} (hserver : server.Documented)
    {pool : Pool τ} {holds : τ → String → Prop} (hpool : pool.Documented holds)
    {twins : CacheTwins ι} (htwins : RedisCache.Neighbours twins.shared) {served : σ}
    (hclear : ∀ owner bytes moment, (twins.shared owner).fullKey "" <+: bytes →
      server.find served moment bytes = none)
    {calls : List (TimedCall ι)} {next : TimedCall ι}
    (hbuilt : ∀ call ∈ calls ++ [next], twins.built call.owner ≤ call.moment)
    (htimed : (calls ++ [next]).Pairwise fun call later => call.moment ≤ later.moment)
    (hserved : ∀ call ∈ calls ++ [next], call.request.IsServed) :
    let state := calls.foldl (twins.call server pool) (twins.opening pool served)
    let shelf := state.shelves next.owner
    ∃ told other, twins.told server state next = .ok told ∧
      remembered pool state next = .ok other ∧
      told.Alike (shelf.response next.moment next.request) ∧
      MemoryCache.TellsNearly shelf next.moment next.request other ∧
      ((next.request ≠ .size ∨ ∀ (key : String) (entry : CacheEntry), shelf[key]? = some entry →
        entry.isLive next.moment = true) → told.Alike other) := by
  intro state shelf
  have hstart : twins.Remembers server pool holds (twins.opening pool served) 0 :=
    .opening hpool hclear
  have hremembers : twins.Remembers server pool holds state next.moment :=
    hstart.run hserver hpool htwins htimed
      (fun call hmem => hserved call (List.mem_append_left _ hmem))
      (fun call hmem => hbuilt call (List.mem_append_left _ hmem)) fun call _ => Nat.zero_le _
  have hlast : next ∈ calls ++ [next] :=
    List.mem_append_right calls (List.mem_singleton_self next)
  obtain ⟨⟨told, htold, halike⟩, ⟨other, hother, hnearly⟩, -⟩ :=
    hremembers.call hserver hpool htwins (hserved next hlast) (hbuilt next hlast)
  exact ⟨told, other, htold, hother, halike, hnearly, fun hsettled =>
    halike.of_alike (hnearly.alike hsettled)⟩

/-- Two names with their caches. -/
def namesakes : CacheTwins Bool where
  name owner := if owner then "status" else "users"
  defaultTtl _ := Duration.ofSeconds 30
  topic _ := .status
  built _ := 0
  timeout := Duration.ofMillis 500

theorem namesakes_neighbours : RedisCache.Neighbours namesakes.shared where
  distinct owner other h := by
    have hnames : (if owner then "status" else "users") = if other then "status" else "users" := h
    cases owner <;> cases other <;> simp_all
  proper owner := by cases owner <;> simp [CacheName.Proper, shared, namesakes]
  whole _ := ⟨30000, by decide, rfl⟩

/-- The same key is written to both caches, to the first one for twenty milliseconds. -/
def briefCalls : List (TimedCall Bool) :=
  [⟨0, true, .set "ada" [1] (Duration.ofMillis 20)⟩, ⟨5000, false, .setDefault "ada" [2]⟩]

/-- The caches after these calls, with a server that keeps its values in a tree and a pool that
gets rid of values in turns. -/
def afterBriefCalls : State Redis.Tree Wheel Bool :=
  briefCalls.foldl (namesakes.call Redis.Tree.server Wheel.pool) (namesakes.opening Wheel.pool ∅)

/-- The number of the entries of a cache is asked for at a moment. -/
def sizeAt (owner : Bool) (moment : Duration) : TimedCall Bool := ⟨moment, owner, .size⟩

/-- As long as nothing has expired both caches of a name count the same. -/
theorem backends_tell_alike_of_unexpired :
    ∃ told other,
      namesakes.told Redis.Tree.server afterBriefCalls (sizeAt false 100000) = .ok told ∧
      remembered Wheel.pool afterBriefCalls (sizeAt false 100000) = .ok other ∧
      told.Alike other := by
  have hclear : ∀ owner bytes moment, (namesakes.shared owner).fullKey "" <+: bytes →
      Redis.Tree.server.find ∅ moment bytes = none := by
    intro owner bytes moment _
    simp [Redis.Tree.server, Redis.Tree.find]
  have htimed : (briefCalls ++ [sizeAt false 100000]).Pairwise
      fun call later => call.moment ≤ later.moment := by decide
  have hserved : ∀ call ∈ briefCalls ++ [sizeAt false 100000], call.request.IsServed := by
    simp only [briefCalls, sizeAt, List.cons_append, List.nil_append, List.forall_mem_cons]
    exact ⟨⟨20, by decide, rfl⟩, trivial, trivial, List.forall_mem_nil _⟩
  obtain ⟨told, other, htold, hother, -, -, halike⟩ := backends_tell_alike
    Redis.Tree.server_documented Wheel.pool_documented namesakes_neighbours hclear
    (fun call _ => Nat.zero_le call.moment) htimed hserved
  refine ⟨told, other, htold, hother, halike (.inr fun key entry hentry => ?_)⟩
  have hshelf : afterBriefCalls.shelves false =
      (∅ : Shelf).insert "ada" (.written [2] 5000 (Duration.ofSeconds 30)) := rfl
  change (afterBriefCalls.shelves false)[key]? = some entry at hentry
  rw [hshelf, Table.get?_insert] at hentry
  split at hentry
  · cases hentry
    decide +kernel
  · simp at hentry

/-- A tenth of a second after the first call the cache in memory still counts the entry that the
other one has got rid of. -/
theorem memory_counts_expired_entry :
    namesakes.told Redis.Tree.server afterBriefCalls (sizeAt true 100000) = .ok (.size 0) ∧
      remembered Wheel.pool afterBriefCalls (sizeAt true 100000) = .ok (.size 1) := by
  constructor
  · decide +kernel
  · decide +kernel

end CacheTwins

end PresenceTracker
