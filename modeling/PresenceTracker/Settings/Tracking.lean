import PresenceTracker.Failure
import PresenceTracker.Time

/-!
# Settings of the status engine

The engine reads these settings at the start of every operation. Three of them have
ranges that are checked before the settings come into force. The two durations that
the rules compare with are held at the upper end of the 64-bit range. What is in force can be
replaced as a whole or not at all, and tracking can be switched on and off without a check. Whatever
is put into force reaches every subscriber.
-/

namespace PresenceTracker

/-- The settings the status engine reads at the start of every operation. -/
structure TrackingSettings where
  /-- Whether statuses are tracked at all; if not, every operation succeeds without effect. -/
  enabled : Bool := true
  /-- The idle time after which an inferred state becomes away, in seconds. -/
  awayTimeoutSeconds : UInt64 := 300
  /-- The least time between two writes of nothing but activity, in milliseconds. -/
  minUpdateIntervalMs : UInt64 := 60000
  /-- The period of the sweep for passed deadlines, in seconds. -/
  sweepIntervalSeconds : UInt64 := 60
  deriving DecidableEq, Repr

namespace TrackingSettings

/-- The idle time after which an inferred state becomes away, in milliseconds. The
product is held at the end of the unsigned range, then of the signed one. -/
def awayTimeoutMs (settings : TrackingSettings) : Moment :=
  Moment.ofNatClamp (min (settings.awayTimeoutSeconds.toNat * 1000) (UInt64.size - 1))

/-- The least time between two writes of nothing but activity, as a duration. -/
def minUpdateInterval (settings : TrackingSettings) : Moment :=
  Moment.ofNatClamp settings.minUpdateIntervalMs.toNat

/-- The names of the settings that are out of range, in alphabetical order. -/
def outOfRange (settings : TrackingSettings) : List String :=
  (if 1 ≤ settings.awayTimeoutSeconds then [] else ["away_timeout_seconds"]) ++
  (if 1 ≤ settings.sweepIntervalSeconds ∧ settings.sweepIntervalSeconds ≤ 3600 then []
    else ["dnd_expiry_interval_seconds"]) ++
  (if settings.minUpdateIntervalMs ≤ 3600000 then [] else ["min_update_interval_ms"])

/-- Whether the settings may come into force. -/
def validate (settings : TrackingSettings) : Except Failure Unit :=
  match settings.outOfRange with
  | [] => .ok ()
  | fields => .error (.outOfRange fields)

/-- Settings may come into force exactly when each is in its range. -/
theorem validate_eq_ok_iff (settings : TrackingSettings) :
    settings.validate = .ok () ↔
      1 ≤ settings.awayTimeoutSeconds ∧ settings.minUpdateIntervalMs ≤ 3600000 ∧
        1 ≤ settings.sweepIntervalSeconds ∧ settings.sweepIntervalSeconds ≤ 3600 := by
  unfold validate outOfRange
  by_cases ha : 1 ≤ settings.awayTimeoutSeconds <;>
    by_cases hs : 1 ≤ settings.sweepIntervalSeconds ∧ settings.sweepIntervalSeconds ≤ 3600 <;>
      by_cases hm : settings.minUpdateIntervalMs ≤ 3600000 <;> simp [ha, hs, hm]

end TrackingSettings

/-- The settings in force and the views of the subscribers. -/
structure LiveSettings where
  /-- The settings in force. -/
  current : TrackingSettings
  /-- What each subscriber sees. -/
  views : List TrackingSettings := []
  deriving DecidableEq, Repr

namespace LiveSettings

/-- Puts settings into force. -/
def put (live : LiveSettings) (settings : TrackingSettings) : LiveSettings :=
  ⟨settings, live.views.map fun _ => settings⟩

/-- Puts the first settings into force, if they are in range. -/
def start (initial : TrackingSettings) : Except Failure LiveSettings :=
  initial.validate.map fun _ => { current := initial }

/-- Adds a subscriber. -/
def subscribe (live : LiveSettings) : LiveSettings :=
  { live with views := live.views ++ [live.current] }

/-- Replaces the settings, if the new ones are in range. -/
def update (live : LiveSettings) (settings : TrackingSettings) : Except Failure LiveSettings :=
  settings.validate.map fun _ => live.put settings

/-- Switches tracking on or off. -/
def setEnabled (live : LiveSettings) (enabled : Bool) : LiveSettings :=
  live.put { live.current with enabled }

end LiveSettings

end PresenceTracker
