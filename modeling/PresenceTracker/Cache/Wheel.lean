import PresenceTracker.Cache.Memory
import PresenceTracker.Table

/-!
# A pool that gets rid of values in turns

Each key has at most one entry, which is passed over once it has expired. Such an entry is neither
found nor listed, but it counts until the pool is rid of it. That happens when the pool looks after
itself for the first time in a turn; turns have a fixed length and begin when the pool is built.
-/

namespace PresenceTracker

/-- An entry of the pool. -/
structure WheelEntry extends CacheEntry where
  /-- The lifetime that the value was written with. -/
  lifetime : Option Duration
  deriving DecidableEq, Repr

/-- The pool. -/
structure Wheel where
  /-- The moment at which it was built. -/
  built : Duration
  /-- The entries, with those that have expired and still count. -/
  entries : Table WheelEntry := ∅
  /-- The moment at which it looked after itself last. -/
  tended : Duration := built
  /-- The turn in which it did so; nothing as long as it has seen no value that expires. -/
  turn : Option Nat := none

namespace Wheel

/-- The length of a turn: `2 ^ 30` nanoseconds. -/
def turnNanoseconds : Nat := Nat.pow 2 30

/-- The number of a turn at a moment. -/
def turnAt (wheel : Wheel) (now : Duration) : Nat :=
  (now - wheel.built) * 1000 / turnNanoseconds

/-- Whether some value expires one day. -/
def hasExpiring (wheel : Wheel) : Bool :=
  wheel.entries.values.any fun entry => entry.expires.isSome

/-- The pool after it has looked after itself at a moment: in a new turn it gets rid of what has
expired. -/
def swept (wheel : Wheel) (now : Duration) : Wheel :=
  let turn := wheel.turnAt now
  if wheel.turn.isNone && !wheel.hasExpiring then { wheel with tended := now }
  else if wheel.turn.getD 0 < turn then
    { wheel with
      entries := wheel.entries.filter fun _ entry => entry.isLive now
      tended := now
      turn := some turn }
  else { wheel with tended := now, turn := some turn }

/-- How long it leaves itself alone while it is used. -/
def restTime : Duration := Duration.ofMillis 300

/-- The pool after it has been used at a moment: it looks after itself if it has not done so for
a while. -/
def used (wheel : Wheel) (now : Duration) : Wheel :=
  if wheel.tended + restTime ≤ now then wheel.swept now else wheel

/-- What a key has at a moment. -/
def find? (wheel : Wheel) (now : Duration) (key : String) : Option TimedValue :=
  (wheel.entries[key]?.filter fun entry => entry.isLive now).map fun entry =>
    ⟨entry.value, entry.lifetime⟩

/-- The keys at a moment with what they have, in ascending order. -/
def list (wheel : Wheel) (now : Duration) : List (String × TimedValue) :=
  (wheel.entries.filter fun _ entry => entry.isLive now).toList.map fun (key, entry) =>
    (key, ⟨entry.value, entry.lifetime⟩)

/-- How long a value that is written at a moment is to live. -/
def lifetimeOf (wheel : Wheel) (policy : ExpiryPolicy) (now : Duration) (key : String)
    (written : TimedValue) : Option Duration :=
  match wheel.entries[key]? with
  | none => policy.afterCreate written
  | some entry => policy.afterUpdate written (entry.expires.map (· - now))

/-- The pool with one more value. -/
def insert (wheel : Wheel) (policy : ExpiryPolicy) (now : Duration) (key : String)
    (written : TimedValue) : Wheel :=
  let lifetime := wheel.lifetimeOf policy now key written
  let entry : WheelEntry := ⟨⟨written.value, lifetime.map (now + ·)⟩, written.lifetime⟩
  { wheel with entries := wheel.entries.insert key entry }

/-- The pool without a key. -/
def erase (wheel : Wheel) (key : String) : Wheel :=
  { wheel with entries := wheel.entries.erase key }

/-- The pool without any key. -/
def clear (wheel : Wheel) : Wheel := { wheel with entries := ∅ }

/-- What callers can do with the pool. -/
def pool : Pool Wheel where
  build now := { built := now }
  get now key wheel := (wheel.find? now key, wheel.used now)
  insert policy now key written wheel := ((), (wheel.used now).insert policy now key written)
  remove now key wheel := ((), (wheel.used now).erase key)
  dropAll now wheel := ((), (wheel.swept now).clear)
  list now wheel := (wheel.list now, wheel)
  tend now wheel := ((), wheel.swept now)
  count wheel := wheel.entries.size

end Wheel

end PresenceTracker
