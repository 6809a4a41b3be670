import Mathlib.Data.List.Induction
import PresenceTracker.Settings.Tracking

/-!
# Settings that stay in range

Settings are replaced as a whole after a check, while the switch is set in place without one.
After any calls in any order the settings in force are in range, and can be read off the calls
from the last one back: the last replacement that was in range, with the switch as it was last set
behind it. Every subscriber sees them, however early or late it came.
-/

namespace PresenceTracker

/-- Each of the settings that have a range is in it. -/
structure TrackingSettings.InRange (settings : TrackingSettings) : Prop where
  /-- The idle time is a second at least. -/
  timeout : 1 ≤ settings.awayTimeoutSeconds
  /-- Writes of activity are at most an hour apart. -/
  interval : settings.minUpdateIntervalMs ≤ 3600000
  /-- The period of the sweep is a second at least and an hour at most. -/
  period : 1 ≤ settings.sweepIntervalSeconds ∧ settings.sweepIntervalSeconds ≤ 3600

namespace TrackingSettings

theorem validate_eq_ok_iff_inRange (settings : TrackingSettings) :
    settings.validate = .ok () ↔ settings.InRange := by
  rw [validate_eq_ok_iff]
  exact ⟨fun ⟨htimeout, hinterval, hperiod⟩ => ⟨htimeout, hinterval, hperiod⟩,
    fun h => ⟨h.timeout, h.interval, h.period⟩⟩

instance (settings : TrackingSettings) : Decidable settings.InRange :=
  decidable_of_iff _ (validate_eq_ok_iff settings |>.symm.trans settings.validate_eq_ok_iff_inRange)

/-- Settings that are not in range are refused with the names of those that are out of it. -/
theorem validate_of_not_inRange {settings : TrackingSettings} (h : ¬ settings.InRange) :
    settings.validate = .error (.outOfRange settings.outOfRange) := by
  rw [← validate_eq_ok_iff_inRange] at h
  unfold validate at h ⊢
  split
  case h_1 hnone =>
    rw [hnone] at h
    exact absurd rfl h
  case h_2 => rfl

end TrackingSettings

/-- What is asked of the settings in force. -/
inductive SettingsCall where
  /-- To be replaced. -/
  | update (settings : TrackingSettings)
  /-- To be switched on or off. -/
  | setEnabled (enabled : Bool)
  /-- To be shown to one more subscriber. -/
  | subscribe
  deriving DecidableEq, Repr

namespace SettingsCall

/-- The settings that a call puts into force as a whole. -/
def accepted? : SettingsCall → Option TrackingSettings
  | update settings => if settings.InRange then some settings else none
  | _ => none

/-- What a call sets the switch to. -/
def switched? : SettingsCall → Option Bool
  | setEnabled enabled => some enabled
  | _ => none

/-- The settings that are to be in force after calls, read from the last call back: the last
replacement in range, or the first settings, with the switch as it was last set since. -/
def outcome (initial : TrackingSettings) (calls : List SettingsCall) : TrackingSettings :=
  let replaced := (calls.reverse.findSome? accepted?).getD initial
  let since := calls.reverse.takeWhile fun call => call.accepted?.isNone
  { replaced with enabled := (since.findSome? switched?).getD replaced.enabled }

/-- A replacement in range takes the place of all that was there, the switch included. -/
theorem outcome_of_accepted {call : SettingsCall} {settings : TrackingSettings}
    (h : call.accepted? = some settings) (initial : TrackingSettings) (calls : List SettingsCall) :
    outcome initial (calls ++ [call]) = settings := by
  simp [outcome, h]

/-- Any other call changes the switch at most. -/
theorem outcome_of_not_accepted (call : SettingsCall) (h : call.accepted? = none)
    (initial : TrackingSettings) (calls : List SettingsCall) :
    outcome initial (calls ++ [call]) =
      { outcome initial calls with
        enabled := call.switched?.getD (outcome initial calls).enabled } := by
  cases hswitch : call.switched? <;> simp [outcome, h, hswitch]

/-- Subscribers come by subscribing only. -/
theorem count_subscribe_of_ne (call : SettingsCall) (h : call ≠ subscribe)
    (calls : List SettingsCall) : (calls ++ [call]).count subscribe = calls.count subscribe := by
  rw [List.count_append, List.count_singleton, if_neg (by simpa using h), Nat.add_zero]

end SettingsCall

namespace LiveSettings

variable {live : LiveSettings} {initial : TrackingSettings} {calls : List SettingsCall}

/-- What a call gives, and what it leaves: a replacement that is refused leaves what was there. -/
def serve (live : LiveSettings) : SettingsCall → Except Failure Unit × LiveSettings
  | .update settings =>
    match live.update settings with
    | .ok later => (.ok (), later)
    | .error failure => (.error failure, live)
  | .setEnabled enabled => (.ok (), live.setEnabled enabled)
  | .subscribe => (.ok (), live.subscribe)

/-- The settings in force after calls one after the other. -/
def run (live : LiveSettings) (calls : List SettingsCall) : LiveSettings :=
  calls.foldl (fun live call => (live.serve call).2) live

theorem serve_update {settings : TrackingSettings} (h : settings.InRange) (live : LiveSettings) :
    live.serve (.update settings) = (.ok (), live.put settings) := by
  rw [serve, update, (settings.validate_eq_ok_iff_inRange).mpr h]
  rfl

theorem serve_refused {settings : TrackingSettings} (h : ¬ settings.InRange)
    (live : LiveSettings) :
    live.serve (.update settings) = (.error (.outOfRange settings.outOfRange), live) := by
  rw [serve, update, TrackingSettings.validate_of_not_inRange h]
  rfl

/-- What holds after calls: the settings in force are those that the calls lead to, they are in
range, and each subscriber sees them. -/
structure Follows (initial : TrackingSettings) (calls : List SettingsCall) (live : LiveSettings) :
    Prop where
  /-- The settings in force are those that the calls lead to. -/
  current : live.current = SettingsCall.outcome initial calls
  /-- Each subscriber sees the settings in force. -/
  views : live.views = List.replicate (calls.count .subscribe) live.current
  /-- The settings in force are in range. -/
  inRange : live.current.InRange

/-- Whatever is put into force is put before all subscribers. -/
theorem Follows.views_put (h : live.Follows initial calls) (settings : TrackingSettings) :
    (live.put settings).views =
      List.replicate (calls.count .subscribe) (live.put settings).current := by
  rw [put, h.views, List.map_replicate]

/-- Every call leads on to what it asks for. -/
theorem Follows.serve (h : live.Follows initial calls) (call : SettingsCall) :
    (live.serve call).2.Follows initial (calls ++ [call]) := by
  cases call with
  | update settings =>
    have hcount := SettingsCall.count_subscribe_of_ne (.update settings) nofun calls
    by_cases hrange : settings.InRange
    · have haccepted : SettingsCall.accepted? (.update settings) = some settings := if_pos hrange
      rw [serve_update hrange]
      exact ⟨(SettingsCall.outcome_of_accepted haccepted initial calls).symm,
        hcount ▸ h.views_put settings, hrange⟩
    · have hrefused : SettingsCall.accepted? (.update settings) = none := if_neg hrange
      rw [serve_refused hrange]
      exact ⟨h.current.trans (SettingsCall.outcome_of_not_accepted _ hrefused initial calls).symm,
        hcount ▸ h.views, h.inRange⟩
  | setEnabled enabled =>
    have hcount := SettingsCall.count_subscribe_of_ne (.setEnabled enabled) nofun calls
    have houtcome := SettingsCall.outcome_of_not_accepted (.setEnabled enabled) rfl initial
      calls
    refine ⟨?_, hcount ▸ h.views_put { live.current with enabled },
      ⟨h.inRange.timeout, h.inRange.interval, h.inRange.period⟩⟩
    rw [houtcome, ← h.current]
    rfl
  | subscribe =>
    have houtcome := SettingsCall.outcome_of_not_accepted .subscribe rfl initial calls
    refine ⟨h.current.trans houtcome.symm, ?_, h.inRange⟩
    show live.views ++ [live.current] = List.replicate _ live.current
    rw [h.views, List.count_append, List.count_singleton_self, List.replicate_succ']

end LiveSettings

end PresenceTracker
