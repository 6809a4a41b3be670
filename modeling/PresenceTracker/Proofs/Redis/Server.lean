import PresenceTracker.Cache.Request
import PresenceTracker.Proofs.Engine.Ensures
import PresenceTracker.Redis.Reply

/-!
# What a server does

A server holds values under keys, which are byte strings, each for ever or up to a moment. What
it is said to do speaks of the commands that caches send and of the values that can be found
from then on. How it keeps the values, and when it gets rid of one that has expired, is its own
affair. Patterns are understood as far as they consist of stars, question marks and bytes that
stand for themselves.
-/

namespace PresenceTracker.Redis

/-- Whether a key fits a pattern: a star stands for any bytes, a question mark for any byte, and
every other byte for itself. -/
def fits : Bytes → Bytes → Bool
  | [], key => key.isEmpty
  | byte :: rest, key =>
    if byte = 42 then (List.range (key.length + 1)).any fun count => fits rest (key.drop count)
    else (key.head?.any fun other => byte = 63 || byte = other) && fits rest key.tail

/-- Whether a pattern is made of stars, question marks and bytes that stand for themselves:
there is neither an opening bracket nor a backslash in it. -/
def IsPlain (pattern : Bytes) : Prop := 91 ∉ pattern ∧ 92 ∉ pattern

/-- A server with states of type `σ`. -/
structure Server (σ : Type) where
  /-- Replies to a command at a moment. -/
  respond : Duration → Command → StateM σ Reply
  /-- The value that a key has at a moment, if no more commands come. -/
  find : σ → Duration → Bytes → Option Bytes

namespace Server

variable {σ : Type}

/-- From a moment on the values of `later` are those of `state`. -/
def Keeps (server : Server σ) (now : Duration) (state later : σ) : Prop :=
  ∀ moment key, now ≤ moment → server.find later moment key = server.find state moment key

/-- From a moment on a key has the value of an entry, as long as that is live. -/
def Puts (server : Server σ) (now : Duration) (state later : σ) (key : Bytes)
    (entry : CacheEntry) : Prop :=
  ∀ moment other, now ≤ moment → server.find later moment other =
    if other = key then if entry.isLive moment then some entry.value else none
    else server.find state moment other

/-- From a moment on some keys have no value. -/
def Drops (server : Server σ) (now : Duration) (state later : σ) (keys : List Bytes) : Prop :=
  ∀ moment other, now ≤ moment → server.find later moment other =
    if other ∈ keys then none else server.find state moment other

/-- The most milliseconds that a lifetime may have: the largest signed 64-bit word. -/
def maxLifetime : Nat := Nat.pow 2 63 - 1

/-- What the commands do, as it is documented. -/
structure Documented (server : Server σ) : Prop where
  /-- `GET` gives the value of a key, or nothing. -/
  get : ∀ now key state, Ensures (server.respond now ⟨"GET", [key]⟩) state fun reply later =>
    reply = (server.find state now key).elim .nil .bulk ∧ server.Keeps now state later
  /-- `SET` gives a key a value for ever. -/
  set : ∀ now key value state, Ensures (server.respond now ⟨"SET", [key, value]⟩) state
    fun reply later => reply = .simple "OK" ∧ server.Puts now state later key ⟨value, none⟩
  /-- `PSETEX` gives a key a value for a number of milliseconds. -/
  setFor : ∀ now key value count state, 0 < count → count ≤ maxLifetime →
    Ensures (server.respond now
      ⟨"PSETEX", [key, Bytes.ofText (Decimal.natText count), value]⟩) state fun reply later =>
        reply = .simple "OK" ∧
          server.Puts now state later key ⟨value, some (now + Duration.ofMillis count)⟩
  /-- `DEL` takes the values of keys away, and counts them. -/
  delete : ∀ now keys state, keys ≠ [] → Ensures (server.respond now ⟨"DEL", keys⟩) state
    fun reply later => (∃ count, reply = .integer count) ∧ server.Drops now state later keys
  /-- `KEYS` lists each key once that has a value and fits a pattern. -/
  keys : ∀ now pattern state, IsPlain pattern →
    Ensures (server.respond now ⟨"KEYS", [pattern]⟩) state fun reply later =>
      (∃ items : List Bytes, reply = .list items ∧ items.Nodup ∧
        ∀ key, key ∈ items ↔ (server.find state now key).isSome = true ∧
          fits pattern key = true) ∧
      server.Keeps now state later

end Server

/-- A key fits bytes that stand for themselves with a star behind them if it begins with them. -/
theorem fits_star {front : Bytes} (hstar : 42 ∉ front) (hmark : 63 ∉ front) (key : Bytes) :
    fits (front ++ [42]) key = true ↔ front <+: key := by
  induction front generalizing key with
  | nil =>
    have hend : fits [42] key = true := by
      simp only [fits, if_true, List.any_eq_true, List.mem_range]
      exact ⟨key.length, Nat.lt_succ_self _, by simp⟩
    exact iff_of_true hend ⟨key, rfl⟩
  | cons byte rest ih =>
    obtain ⟨hbyte, hrest⟩ := not_or.mp (mt List.mem_cons.mpr hstar)
    obtain ⟨hbyte', hrest'⟩ := not_or.mp (mt List.mem_cons.mpr hmark)
    rw [List.cons_append, fits, if_neg (Ne.symm hbyte), Bool.and_eq_true, ih hrest hrest']
    cases key with
    | nil => simp
    | cons other key => simp [Ne.symm hbyte']

end PresenceTracker.Redis
