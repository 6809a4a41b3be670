import Mathlib.Algebra.Group.Int.Defs
import Mathlib.Algebra.Group.Nat.Defs
import PresenceTracker.Engine.Slots

/-!
# Windows of time

How long a user has been idle and how long ago a row was written are distances between moments,
and both are held at the ends of the 64-bit range, as are the durations that they are compared
with. Holding a distance never changes on which side of a duration it lies, so both comparisons
come out as in unbounded integers, for all moments and all settings, in range or not.
-/

namespace PresenceTracker

theorem Moment.toInt_ofIntClamp (number : Int) :
    (Int64.ofIntClamp number).toInt = max (-2 ^ 63) (min number (2 ^ 63 - 1)) := by
  unfold Int64.ofIntClamp
  have hmin : Int64.minValue.toInt = -2 ^ 63 := rfl
  have hmax : Int64.maxValue.toInt = 2 ^ 63 - 1 := rfl
  split
  · split
    · rw [Int64.toInt_ofIntLE]
      omega
    · omega
  · omega

/-- A number of milliseconds is held at the upper end of the range only. -/
theorem Moment.toInt_ofNatClamp (count : Nat) :
    (ofNatClamp count).toInt = min (count : Int) (2 ^ 63 - 1) := by
  rw [ofNatClamp, toInt_ofIntClamp]
  omega

/-- A distance that is held at the end of the range is compared as if it were not. -/
theorem Moment.since_lt_iff {interval : Moment} (h : 0 ≤ interval.toInt) (later earlier : Moment) :
    since later earlier < interval ↔ later.toInt - earlier.toInt < interval.toInt := by
  have hlimit := interval.toInt_lt
  rw [Int64.lt_iff_toInt_lt, since, toInt_ofIntClamp]
  omega

namespace TrackingSettings

theorem toInt_minUpdateInterval (settings : TrackingSettings) :
    settings.minUpdateInterval.toInt =
      min (settings.minUpdateIntervalMs.toNat : Int) (2 ^ 63 - 1) :=
  Moment.toInt_ofNatClamp _

/-- Where the product is held at the end of the unsigned range, the signed range has ended
before. -/
theorem toInt_awayTimeoutMs (settings : TrackingSettings) :
    settings.awayTimeoutMs.toInt =
      min (1000 * (settings.awayTimeoutSeconds.toNat : Int)) (2 ^ 63 - 1) := by
  have hsize : UInt64.size = 2 ^ 64 := rfl
  rw [awayTimeoutMs, Moment.toInt_ofNatClamp, hsize]
  omega

end TrackingSettings

theorem coalesces_none (now interval : Moment) : coalesces none now interval = false := rfl

theorem coalesces_some_iff (settings : TrackingSettings) (moment now : Moment) :
    coalesces (some moment) now settings.minUpdateInterval = true ↔
      now.toInt - moment.toInt < settings.minUpdateInterval.toInt := by
  have hnonneg : 0 ≤ settings.minUpdateInterval.toInt := by
    rw [TrackingSettings.toInt_minUpdateInterval]
    omega
  simp only [coalesces, Option.any_some, decide_eq_true_eq]
  exact Moment.since_lt_iff hnonneg now moment

/-- A window that is closed stays closed. -/
theorem coalesces_eq_false_of_le {settings : TrackingSettings} {last : Option Moment}
    {now later : Moment} (h : coalesces last now settings.minUpdateInterval = false)
    (hle : now ≤ later) : coalesces last later settings.minUpdateInterval = false := by
  cases last with
  | none => rfl
  | some moment =>
    rw [Bool.eq_false_iff, Ne, coalesces_some_iff] at h ⊢
    have hle' := Int64.le_iff_toInt_le.mp hle
    omega

/-- A user without a choice who is not away is made away or kept, as the time since the last
activity compares with the timeout. -/
theorem Transition.decision_away_of_inferred {current : Current}
    (hmanual : current.record.manual = false) (haway : current.record.status ≠ .away)
    (now timeout : Moment) :
    (away false).decision current now timeout =
      .ok (if Moment.since now current.record.lastActivity < timeout then .keep
        else .apply { current.record.moveTo .away false with channel := none }) := by
  simp [decision, setAway, hmanual, haway]

/-- For all moments and settings, a user without a choice who is not away is made away exactly if
the user has been idle for the timeout, and a write of activity is skipped exactly if the last
write is known and less than the interval ago, where distances and products are those of unbounded
integers and a duration beyond the 64-bit range is held at its upper end. -/
theorem windows_compare_exactly (settings : TrackingSettings) (now : Moment) :
    (∀ current : Current, current.record.manual = false → current.record.status ≠ .away →
      ((∃ next, (Transition.away false).decision current now settings.awayTimeoutMs =
          .ok (.apply next)) ↔
        min (1000 * (settings.awayTimeoutSeconds.toNat : Int)) (2 ^ 63 - 1) ≤
          now.toInt - current.record.lastActivity.toInt)) ∧
      ∀ last : Option Moment, coalesces last now settings.minUpdateInterval = true ↔
        ∃ moment, last = some moment ∧
          now.toInt - moment.toInt <
            min (settings.minUpdateIntervalMs.toNat : Int) (2 ^ 63 - 1) := by
  refine ⟨fun current hmanual haway => ?_, fun last => ?_⟩
  · have htimeout := settings.toInt_awayTimeoutMs
    have hnonneg : 0 ≤ settings.awayTimeoutMs.toInt := by
      rw [htimeout]
      omega
    have hidle := Moment.since_lt_iff hnonneg now current.record.lastActivity
    rw [Transition.decision_away_of_inferred hmanual haway, ← htimeout, ← Int.not_lt, ← hidle]
    split
    case isTrue hrecent => simp [hrecent]
    case isFalse hlong => simp [hlong]
  · cases last with
    | none => simp [coalesces_none]
    | some moment =>
      rw [coalesces_some_iff, settings.toInt_minUpdateInterval]
      simp

/-- Settings with the longest durations that can be written. -/
def longest : TrackingSettings where
  awayTimeoutSeconds := 18446744073709551615
  minUpdateIntervalMs := 18446744073709551615

/-- At the last moment there is, whoever was active before the epoch by any time is away even under
the longest timeout and whoever was active a millisecond after it is not; the write at the epoch is
long enough ago even under the longest interval, and the one a millisecond later is not. -/
theorem windows_compare_exactly_at_the_end :
    (∃ next, (Transition.away false).decision
        ⟨⟨"ada", .online, false, Int64.minValue, none, none, none⟩, true⟩ Int64.maxValue
        longest.awayTimeoutMs = .ok (.apply next)) ∧
      (¬ ∃ next, (Transition.away false).decision
        ⟨⟨"ada", .online, false, 1, none, none, none⟩, true⟩ Int64.maxValue
        longest.awayTimeoutMs = .ok (.apply next)) ∧
      coalesces (some 0) Int64.maxValue longest.minUpdateInterval = false ∧
      coalesces (some 1) Int64.maxValue longest.minUpdateInterval = true := by
  obtain ⟨haway, hskip⟩ := windows_compare_exactly longest Int64.maxValue
  refine ⟨(haway _ rfl (by decide)).mpr (by decide), fun happly => ?_, ?_, ?_⟩
  · exact absurd ((haway _ rfl (by decide)).mp happly) (by decide)
  · rw [Bool.eq_false_iff, Ne, hskip]
    rintro ⟨moment, hmoment, hlt⟩
    cases hmoment
    exact absurd hlt (by decide)
  · exact (hskip _).mpr ⟨1, rfl, by decide⟩

end PresenceTracker
