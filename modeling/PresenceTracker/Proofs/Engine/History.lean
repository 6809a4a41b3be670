import PresenceTracker.Proofs.Engine.Frame
import PresenceTracker.Proofs.Engine.Windows

/-!
# What a node remembers of its writes

A node forgets when it last wrote a user once the window that the write opened is closed. The
clock does not go back, so from then on the node answers as if it had not forgotten. Up to
that, what a stretch of work leaves behind is what it did to each user's row: it kept the row,
wrote it, or removed it. Work that makes no calls that write rows is idle.
-/

namespace PresenceTracker

/-- What is left of a slot: all of it, or nothing once its window is closed. -/
def Remains (settings : TrackingSettings) (now : Moment) (slot left : Option Moment) : Prop :=
  left = slot ∨ left = none ∧ coalesces slot now settings.minUpdateInterval = false

namespace Remains

variable {settings : TrackingSettings} {now later : Moment} {slot left last : Option Moment}

/-- A slot that was not touched remains. -/
theorem refl (settings : TrackingSettings) (now : Moment) (slot : Option Moment) :
    Remains settings now slot slot := .inl rfl

/-- A slot that remains twice remains. -/
theorem trans (h : Remains settings now slot left) (h' : Remains settings now left last) :
    Remains settings now slot last := by
  rcases h' with rfl | ⟨rfl, hclosed⟩
  · exact h
  · rcases h with rfl | ⟨rfl, hbefore⟩
    · exact .inr ⟨rfl, hclosed⟩
    · exact .inr ⟨rfl, hbefore⟩

/-- What is left at a moment may be left later on as well. -/
theorem of_le (h : Remains settings now slot left) (hle : now ≤ later) :
    Remains settings later slot left :=
  h.imp_right fun ⟨hnone, hclosed⟩ => ⟨hnone, coalesces_eq_false_of_le hclosed hle⟩

/-- What is left of a slot answers as the slot does. -/
theorem coalesces_eq (h : Remains settings now slot left) (hle : now ≤ later) :
    coalesces left later settings.minUpdateInterval =
      coalesces slot later settings.minUpdateInterval := by
  rcases h with rfl | ⟨rfl, hclosed⟩
  · rfl
  · rw [coalesces_eq_false_of_le hclosed hle, coalesces_none]

end Remains

/-- What a stretch of work does to a user's row. -/
inductive Mark where
  /-- The row is not written. -/
  | kept
  /-- The row is written. -/
  | written
  /-- The row is removed. -/
  | removed
  deriving DecidableEq, Repr

namespace Mark

/-- When the user was last written, after a stretch of work at `clock`. -/
def last (clock : Moment) : Mark → Option Moment → Option Moment
  | kept, before => before
  | written, _ => some clock
  | removed, _ => none

/-- What is left of a slot is noted like the slot itself. -/
theorem remains_last {settings : TrackingSettings} {now : Moment} {slot left : Option Moment}
    (h : Remains settings now slot left) (clock : Moment) (mark : Mark) :
    Remains settings now (mark.last clock slot) (mark.last clock left) := by
  cases mark with
  | kept => exact h
  | written => exact .refl settings now _
  | removed => exact .refl settings now _

/-- What two stretches of work do one after the other, as far as it is to be remembered. -/
def andThen : Mark → Mark → Mark
  | mark, kept => mark
  | _, written => written
  | _, removed => removed

/-- What is kept leaves the next mark as it is. -/
theorem kept_andThen (mark : Mark) : kept.andThen mark = mark := by cases mark <;> rfl

/-- Two marks in sequence leave the moment that the second one leaves after the first. -/
theorem last_andThen (clock : Moment) (first second : Mark) (before : Option Moment) :
    (first.andThen second).last clock before = second.last clock (first.last clock before) := by
  cases second <;> rfl

end Mark

/-- Whether a call only writes the activity of a row. -/
def StoreCall.touches : StoreCall → Bool
  | touch _ _ => true
  | _ => false

/-- A read is no write of just the activity. -/
theorem StoreCall.not_touches_of_reads {call : StoreCall} (h : call.reads = true) :
    call.touches = false := by
  cases call <;> first | rfl | cases h

namespace Site

/-- What a stretch of work at a site leaves behind: what it did to each user's row, and the
calls that wrote nothing but activity. -/
structure Remembers (marks : String → Mark) (touches : List StoreCall) (site later : Site) :
    Prop where
  /-- The clock stands still. -/
  clock : later.clock = site.clock
  /-- The settings are the same. -/
  settings : later.settings = site.settings
  /-- The node has noted what was done to each user's row, and forgotten at most slots whose
  windows are closed. -/
  slots : ∀ user : String, Remains site.settings site.clock
    ((marks user).last site.clock site.slots[user]?) later.slots[user]?
  /-- Rows come into being only where they are written. -/
  absent : ∀ user : String, marks user = .kept → site.store[user]? = none →
    later.store[user]? = none
  /-- A row that was removed is gone. -/
  gone : ∀ user : String, marks user = .removed → later.store[user]? = none
  /-- These calls wrote nothing but activity, and no others. -/
  asked : ∃ calls, later.asked = site.asked ++ calls ∧ calls.filter StoreCall.touches = touches

/-- A stretch of work that writes and removes no rows. -/
abbrev Idles (site later : Site) : Prop := site.Remembers (fun _ => .kept) [] later

namespace Remembers

variable {site later final : Site} {marks marks' : String → Mark}
  {touches touches' : List StoreCall}

/-- From now on the node answers as if it had noted what was done to each user's row, and had
forgotten nothing. -/
theorem windows (h : site.Remembers marks touches later) (user : String) (now : Moment)
    (hnow : site.clock ≤ now) :
    coalesces later.slots[user]? now site.settings.minUpdateInterval =
      coalesces ((marks user).last site.clock site.slots[user]?) now
        site.settings.minUpdateInterval := (h.slots user).coalesces_eq hnow

/-- What two spells remember is remembered of both in sequence. -/
theorem andThen (h : site.Remembers marks touches later)
    (h' : later.Remembers marks' touches' final) :
    site.Remembers (fun user => (marks user).andThen (marks' user)) (touches ++ touches')
      final where
  clock := h'.clock.trans h.clock
  settings := h'.settings.trans h.settings
  slots user := by
    have hsecond := h'.slots user
    rw [h.settings, h.clock] at hsecond
    rw [Mark.last_andThen]
    exact (Mark.remains_last (h.slots user) site.clock (marks' user)).trans hsecond
  absent user hkept hnone := by
    cases hmark' : marks' user with
    | kept =>
      rw [hmark'] at hkept
      exact h'.absent user hmark' (h.absent user hkept hnone)
    | written => rw [hmark'] at hkept; cases hkept
    | removed => rw [hmark'] at hkept; cases hkept
  gone user hremoved := by
    cases hmark' : marks' user with
    | kept =>
      rw [hmark'] at hremoved
      exact h'.absent user hmark' (h.gone user hremoved)
    | written => rw [hmark'] at hremoved; cases hremoved
    | removed => exact h'.gone user hmark'
  asked := by
    obtain ⟨calls, hasked, htouches⟩ := h.asked
    obtain ⟨calls', hasked', htouches'⟩ := h'.asked
    refine ⟨calls ++ calls', by rw [hasked', hasked, List.append_assoc], ?_⟩
    rw [List.filter_append, htouches, htouches']

/-- What is idle at the end leaves nothing more behind. -/
theorem idles (h : site.Remembers marks touches later) (h' : later.Idles final) :
    site.Remembers marks touches final := by
  have hboth := h.andThen h'
  rwa [List.append_nil] at hboth

/-- What is idle at the beginning leaves nothing more behind. -/
theorem after_idles (h : site.Idles later) (h' : later.Remembers marks touches final) :
    site.Remembers marks touches final := by
  have hboth := h.andThen h'
  rw [List.nil_append] at hboth
  rwa [show (fun user => Mark.kept.andThen (marks user)) = marks from
    funext fun user => Mark.kept_andThen (marks user)] at hboth

end Remembers

/-- Work that leaves the slots alone and brings no rows into being has written nothing. -/
theorem Remembers.of_same {site later : Site} {touches : List StoreCall}
    (hclock : later.clock = site.clock) (hsettings : later.settings = site.settings)
    (hslots : later.slots = site.slots)
    (hrows : ∀ user : String, site.store[user]? = none → later.store[user]? = none)
    {calls : List StoreCall} (hasked : later.asked = site.asked ++ calls)
    (hcalls : calls.filter StoreCall.touches = touches) :
    site.Remembers (fun _ => .kept) touches later where
  clock := hclock
  settings := hsettings
  slots user := by
    rw [hslots]
    exact .refl site.settings site.clock _
  absent user _ := hrows user
  gone _ hremoved := by cases hremoved
  asked := ⟨calls, hasked, hcalls⟩

/-- A call to the store that changes nothing leaves behind that it was made. -/
theorem Fades.remembers {outside : Outside} {site later : Site} (h : site.Fades outside later)
    {call : StoreCall} (hasked : later.asked = site.asked ++ [call]) :
    site.Remembers (fun _ => .kept) ([call].filter StoreCall.touches) later :=
  Remembers.of_same h.clock h.settings h.slots (fun _ hnone => h.store ▸ hnone) hasked rfl

/-- Work that asks nothing of the store and leaves the slots alone is idle. -/
theorem Idles.of_same {site later : Site} (hclock : later.clock = site.clock)
    (hsettings : later.settings = site.settings) (hslots : later.slots = site.slots)
    (hstore : later.store = site.store) (hasked : later.asked = site.asked) : site.Idles later :=
  Remembers.of_same hclock hsettings hslots (fun _ hnone => hstore ▸ hnone)
    (hasked.trans (List.append_nil _).symm) rfl

/-- A site at which nothing is done idles. -/
theorem Idles.refl (site : Site) : site.Idles site := .of_same rfl rfl rfl rfl rfl

/-- A slot is forgotten only if its window is closed. -/
theorem release_idles (site : Site) (user : String) :
    Ensures (Engine.release user) site fun _ later => site.Idles later := by
  refine ensures_modify ?_
  split
  · exact .refl site
  · next hclosed =>
    refine ⟨rfl, rfl, fun other => ?_, fun _ _ h => h, fun _ => nofun,
      [], (List.append_nil _).symm, rfl⟩
    show Remains site.settings site.clock site.slots[other]? (site.slots.erase user)[other]?
    rw [Table.get?_erase]
    split
    · next hsame =>
      subst hsame
      exact .inr ⟨rfl, Bool.eq_false_iff.mpr hclosed⟩
    · exact .refl site.settings site.clock _

/-- Calls that write no rows are idle, and so is the end of an operation on a user. -/
theorem idles_frame (outside : Outside) : Frame outside Idles where
  refl := .refl
  trans h h' := h.idles h'
  fades h hasked := .of_same h.clock h.settings h.slots h.store hasked
  asks call hreads h hasked := by
    have hremembers := h.remembers hasked
    rwa [List.filter_cons_of_neg (by simp [StoreCall.not_touches_of_reads hreads])] at hremembers
  hold _ _ := .of_same rfl rfl rfl rfl rfl
  drop _ _ := .of_same rfl rfl rfl rfl rfl
  clear _ := .of_same rfl rfl rfl rfl rfl
  tell _ _ _ _ := .of_same rfl rfl rfl rfl rfl
  broadcast _ _ := .of_same rfl rfl rfl rfl rfl
  release := release_idles

end Site

end PresenceTracker
